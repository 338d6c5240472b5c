import Mathlib.Tactic

/-!
# The flash partitions of the device tree

The partition table that `sfc350.c` fills from the child nodes of the boot partition
node, or with one partition for the whole chip.  Every write to the entries of the table
is recorded with its index, as the index of the loop is not compared with their number.
-/

namespace HiMpu.SfcPartitions

def maxMtdPartitions : ℕ := 32
def sfcBusid1 : ℕ := 1
def sfcCsid1 : ℕ := 1
def efault : ℤ := 14
def enomem : ℤ := 12

structure MtdPartition where
  name : String
  size : BitVec 64
  offset : BitVec 64
  maskFlags : BitVec 32

structure Child where
  label : Option String
  reg : Option (BitVec 32 × BitVec 32)

/-- `g_ptn_info[idx].parts` as an address of any index sees it, and the indices of the
entries that have been written. -/
structure Parts where
  entry : ℕ → MtdPartition
  written : List ℕ

namespace Parts

def write (p : Parts) (i : ℕ) (e : MtdPartition) : Parts where
  entry := Function.update p.entry i e
  written := i :: p.written

def setName (p : Parts) (i : ℕ) (name : String) : Parts :=
  p.write i { p.entry i with name := name }

def setRegion (p : Parts) (i : ℕ) (offset size : BitVec 64) : Parts :=
  p.write i
    { p.entry i with
      offset := offset
      size := size
      maskFlags := 0 }

def setSize (p : Parts) (i : ℕ) (size : BitVec 64) : Parts :=
  p.write i { p.entry i with size := size }

end Parts

structure Table where
  nrPart : ℤ
  parts : Parts

def normalRegion : ℕ → String
  | 0 => "sfc0cs0"
  | 1 => "sfc0cs1"
  | 2 => "sfc1cs0"
  | _ => "sfc1cs1"

def wholeChip (idx : ℕ) (partsize : BitVec 64) : MtdPartition where
  name := normalRegion idx
  size := partsize
  offset := 0
  maskFlags := 0

def hisfcDrvNormalParse (idx : ℕ) (partsize : BitVec 64) (p : Parts) : Table where
  nrPart := 1
  parts := p.write 0 (wholeChip idx partsize)

/-- The sum has 32 bits. -/
def hisfcIsDtbParamValid (partsize : BitVec 64) (offset size : BitVec 32) : Bool :=
  (offset + size).setWidth 64 ≤ partsize

def parseChild (partsize : BitVec 64) (child : Child) (i : ℕ) (p : Parts) : ℤ × Parts :=
  match child.label with
  | none => (-efault, p)
  | some name =>
    let p := p.setName i name
    match child.reg with
    | none => (-efault, p)
    | some (offset, size) =>
      if hisfcIsDtbParamValid partsize offset size then
        (0, p.setRegion i (offset.setWidth 64) (size.setWidth 64))
      else
        (-enomem, p)

def parseChildren (partsize : BitVec 64) : List Child → BitVec 8 → Parts → ℤ × BitVec 8 × Parts
  | [], i, p => (0, i, p)
  | child :: children, i, p =>
    let (ret, p) := parseChild partsize child i.toNat p
    if ret ≠ 0 then (ret, i, p) else parseChildren partsize children (i + 1) p

def hisfcDrvDtbParse (partsize : BitVec 64) (node : List Child) (nrPart : ℤ) (p : Parts) :
    ℤ × Table :=
  let (ret, i, p) := parseChildren partsize node 0 p
  if ret ≠ 0 then
    (ret, { nrPart := nrPart, parts := p })
  else
    let p :=
      if i ≥ 1 then
        p.setSize (i.toNat - 1) (partsize - (p.entry (i.toNat - 1)).offset)
      else p
    (0, { nrPart := i.toNat, parts := p })

/-- The result is `NULL` with no partition for a chip select that there is not. -/
def hisfcDrvParseSpiPartition (bus cs : ℕ) (partsize : BitVec 64) (node : Option (List Child))
    (nrPart : ℤ) (p : Parts) : Table :=
  if bus > sfcBusid1 ∨ cs > sfcCsid1 then
    { nrPart := 0, parts := p }
  else
    let idx := if bus = sfcBusid1 then bus + cs + 1 else bus + cs
    match node with
    | none => hisfcDrvNormalParse idx partsize p
    | some node =>
      let (ret, t) := hisfcDrvDtbParse partsize node nrPart p
      if ret ≠ 0 then hisfcDrvNormalParse idx partsize t.parts else t

def Child.Valid (partsize : BitVec 64) (child : Child) : Prop :=
  child.label.isSome ∧ ∃ offset size, child.reg = some (offset, size) ∧
    offset.toNat + size.toNat ≤ partsize.toNat

def Child.Accepted (partsize : BitVec 64) (child : Child) : Prop :=
  child.label.isSome ∧ ∃ offset size, child.reg = some (offset, size) ∧
    hisfcIsDtbParamValid partsize offset size = true

structure Sound (idx : ℕ) (partsize : BitVec 64) (node : List Child) (t : Table) : Prop where
  fits : ∀ i : ℕ, (i : ℤ) < t.nrPart →
    (t.parts.entry i).offset.toNat + (t.parts.entry i).size.toNat ≤ partsize.toNat
  inTable : ∀ i ∈ t.parts.written, i < maxMtdPartitions
  fallsBack : (∃ child ∈ node, ¬child.Valid partsize) →
    t.nrPart = 1 ∧ t.parts.entry 0 = wholeChip idx partsize

/-- The loop gets past the last entry: 32 children pass and the next one has a label. -/
def Overruns (partsize : BitVec 64) (node : List Child) : Prop :=
  ∃ before child rest, node = before ++ child :: rest ∧ before.length = maxMtdPartitions ∧
    (∀ c ∈ before, c.Accepted partsize) ∧ child.label.isSome

theorem Child.Valid.accepted {partsize : BitVec 64} {child : Child} (h : child.Valid partsize) :
    child.Accepted partsize := by
  obtain ⟨hlabel, offset, size, hreg, hfits⟩ := h
  refine ⟨hlabel, offset, size, hreg, ?_⟩
  have hsum : (offset + size).toNat ≤ offset.toNat + size.toNat := by
    rw [BitVec.toNat_add]
    exact Nat.mod_le _ _
  have hwiden : ((offset + size).setWidth 64).toNat = (offset + size).toNat :=
    BitVec.toNat_setWidth_of_le (by omega)
  rw [hisfcIsDtbParamValid, decide_eq_true_eq, BitVec.le_def, hwiden]
  omega

theorem parseChild_accepted {partsize : BitVec 64} {child : Child} (i : ℕ) (p : Parts)
    (h : child.Accepted partsize) :
    ∃ name offset size, child.label = some name ∧ child.reg = some (offset, size) ∧
      hisfcIsDtbParamValid partsize offset size = true ∧
      parseChild partsize child i p =
        (0, (p.setName i name).setRegion i (offset.setWidth 64) (size.setWidth 64)) := by
  obtain ⟨hlabel, offset, size, hreg, hvalid⟩ := h
  obtain ⟨name, hname⟩ := Option.isSome_iff_exists.mp hlabel
  refine ⟨name, offset, size, hname, hreg, hvalid, ?_⟩
  simp only [parseChild, hname, hreg, hvalid, if_true]

theorem parseChild_rejected {partsize : BitVec 64} {child : Child} (i : ℕ) (p : Parts)
    (h : ¬child.Accepted partsize) : (parseChild partsize child i p).1 ≠ 0 := by
  unfold parseChild
  cases hname : child.label with
  | none => simp [efault]
  | some name =>
    cases hreg : child.reg with
    | none => simp [efault]
    | some reg =>
      obtain ⟨offset, size⟩ := reg
      have hnot : hisfcIsDtbParamValid partsize offset size = false := by
        by_contra hvalid
        exact h ⟨by rw [hname]; rfl, offset, size, hreg, by simpa using hvalid⟩
      simp [hnot, enomem]

variable {partsize : BitVec 64} {children : List Child} {i : BitVec 8} {p : Parts}

theorem index_zero : (0 : BitVec 8).toNat = 0 :=
  rfl

theorem index_succ {n : ℕ} (hlt : i.toNat + (n + 1) < 256) : (i + 1).toNat = i.toNat + 1 := by
  bv_omega

theorem parseChildren_cons_accepted {child : Child} (h : child.Accepted partsize) :
    parseChildren partsize (child :: children) i p =
      parseChildren partsize children (i + 1) (parseChild partsize child i.toNat p).2 := by
  obtain ⟨name, offset, size, -, -, -, hturn⟩ := parseChild_accepted i.toNat p h
  simp [parseChildren, hturn]

theorem parseChildren_cons_rejected {child : Child} (h : ¬child.Accepted partsize) :
    parseChildren partsize (child :: children) i p =
      ((parseChild partsize child i.toNat p).1, i, (parseChild partsize child i.toNat p).2) := by
  have hret := parseChild_rejected i.toNat p h
  simp [parseChildren, hret]

theorem parseChildren_ret :
    (parseChildren partsize children i p).1 = 0 ↔ ∀ c ∈ children, c.Accepted partsize := by
  induction children generalizing i p with
  | nil => simp [parseChildren]
  | cons child children ih =>
    by_cases h : child.Accepted partsize
    · rw [parseChildren_cons_accepted h, ih]
      simp [h]
    · rw [parseChildren_cons_rejected h]
      simp [h, parseChild_rejected i.toNat p h]

theorem parseChildren_index (h : ∀ c ∈ children, c.Accepted partsize)
    (hlt : i.toNat + children.length < 256) :
    (parseChildren partsize children i p).2.1.toNat = i.toNat + children.length := by
  induction children generalizing i p with
  | nil => rfl
  | cons child children ih =>
    simp only [List.length_cons] at hlt ⊢
    have hnext := index_succ hlt
    rw [parseChildren_cons_accepted (h child List.mem_cons_self),
      ih (fun c hc => h c (List.mem_cons_of_mem _ hc)) (by omega), hnext]
    omega

def Fits (partsize : BitVec 64) (e : MtdPartition) : Prop :=
  e.offset.toNat + e.size.toNat ≤ partsize.toNat

theorem parseChild_entry {child : Child} (j : ℕ) (h : child.Accepted partsize) :
    (∀ k ≠ j, (parseChild partsize child j p).2.entry k = p.entry k) ∧
      ∃ offset size, child.reg = some (offset, size) ∧
        ((parseChild partsize child j p).2.entry j).offset = offset.setWidth 64 ∧
        ((parseChild partsize child j p).2.entry j).size = size.setWidth 64 := by
  obtain ⟨name, offset, size, -, hreg, -, hturn⟩ := parseChild_accepted j p h
  rw [hturn]
  constructor
  · intro k hk
    simp only [Parts.setRegion, Parts.setName, Parts.write]
    rw [Function.update_of_ne hk, Function.update_of_ne hk]
  · refine ⟨offset, size, hreg, ?_, ?_⟩ <;>
      simp only [Parts.setRegion, Parts.write, Function.update_self]

theorem Child.Valid.fits {child : Child} (j : ℕ) (h : child.Valid partsize) :
    Fits partsize ((parseChild partsize child j p).2.entry j) := by
  obtain ⟨-, offset, size, hreg, hoffset, hsize⟩ := parseChild_entry (p := p) j h.accepted
  obtain ⟨-, offset', size', hreg', hsum⟩ := h
  cases hreg.symm.trans hreg'
  rw [Fits, hoffset, hsize, BitVec.toNat_setWidth_of_le (by omega),
    BitVec.toNat_setWidth_of_le (by omega)]
  exact hsum

theorem parseChildren_fits (h : ∀ c ∈ children, c.Valid partsize)
    (hlt : i.toNat + children.length < 256) (hfits : ∀ k < i.toNat, Fits partsize (p.entry k)) :
    ∀ k < i.toNat + children.length,
      Fits partsize ((parseChildren partsize children i p).2.2.entry k) := by
  induction children generalizing i p with
  | nil => exact hfits
  | cons child children ih =>
    have hvalid := h child List.mem_cons_self
    simp only [List.length_cons] at hlt ⊢
    have hnext := index_succ hlt
    have hturn : ∀ k < (i + 1).toNat,
        Fits partsize ((parseChild partsize child i.toNat p).2.entry k) := by
      intro k hk
      by_cases hcur : k = i.toNat
      · rw [hcur]
        exact hvalid.fits i.toNat
      · rw [(parseChild_entry i.toNat hvalid.accepted).1 k hcur]
        exact hfits k (by omega)
    rw [parseChildren_cons_accepted hvalid.accepted]
    intro k hk
    exact ih (fun c hc => h c (List.mem_cons_of_mem _ hc)) (by omega) hturn k (by omega)

theorem mem_parseChild_written (partsize : BitVec 64) (child : Child) (j k : ℕ) :
    k ∈ (parseChild partsize child j p).2.written ↔
      k ∈ p.written ∨ (k = j ∧ child.label.isSome) := by
  unfold parseChild
  cases child.label with
  | none => simp
  | some name =>
    cases child.reg with
    | none => simp [Parts.setName, Parts.write, or_comm]
    | some reg =>
      simp only
      split <;> simp [Parts.setName, Parts.setRegion, Parts.write, or_comm]

theorem parseChildren_written {k : ℕ} (h : k ∈ p.written) :
    k ∈ (parseChildren partsize children i p).2.2.written := by
  induction children generalizing i p with
  | nil => exact h
  | cons child children ih =>
    have hturn := (mem_parseChild_written partsize child i.toNat k).mpr (.inl h)
    by_cases hacc : child.Accepted partsize
    · rw [parseChildren_cons_accepted hacc]
      exact ih hturn
    · rw [parseChildren_cons_rejected hacc]
      exact hturn

theorem parseChildren_reached {before : List Child} {child : Child} (rest : List Child)
    (hbefore : ∀ c ∈ before, c.Accepted partsize) (hlabel : child.label.isSome)
    (hlt : i.toNat + before.length < 256) :
    i.toNat + before.length ∈
      (parseChildren partsize (before ++ child :: rest) i p).2.2.written := by
  induction before generalizing i p with
  | nil =>
    have hself := (mem_parseChild_written (p := p) partsize child i.toNat i.toNat).mpr
      (.inr ⟨rfl, hlabel⟩)
    rw [List.nil_append]
    by_cases hacc : child.Accepted partsize
    · rw [parseChildren_cons_accepted hacc]
      exact parseChildren_written hself
    · rw [parseChildren_cons_rejected hacc]
      exact hself
  | cons first before ih =>
    simp only [List.length_cons] at hlt ⊢
    have hnext := index_succ hlt
    have hrest := ih (i := i + 1) (p := (parseChild partsize first i.toNat p).2)
      (fun c hc => hbefore c (List.mem_cons_of_mem _ hc)) (by omega)
    rw [List.cons_append, parseChildren_cons_accepted (hbefore first List.mem_cons_self)]
    rw [hnext] at hrest
    rwa [Nat.add_right_comm, Nat.add_assoc] at hrest

theorem parseChildren_written_cases {k : ℕ}
    (h : k ∈ (parseChildren partsize children i p).2.2.written) :
    k ∈ p.written ∨ ∃ before child rest, children = before ++ child :: rest ∧
      (∀ c ∈ before, c.Accepted partsize) ∧ child.label.isSome ∧
      k = (i.toNat + before.length) % 256 := by
  induction children generalizing i p with
  | nil => exact .inl h
  | cons child children ih =>
    have hturn : k ∈ (parseChild partsize child i.toNat p).2.written →
        k ∈ p.written ∨ ∃ before c rest, child :: children = before ++ c :: rest ∧
          (∀ c ∈ before, c.Accepted partsize) ∧ c.label.isSome ∧
          k = (i.toNat + before.length) % 256 := by
      intro hmem
      rcases (mem_parseChild_written partsize child i.toNat k).mp hmem with hold | ⟨rfl, hlabel⟩
      · exact .inl hold
      · exact .inr ⟨[], child, children, rfl, nofun, hlabel, (Nat.mod_eq_of_lt i.isLt).symm⟩
    by_cases hacc : child.Accepted partsize
    · rw [parseChildren_cons_accepted hacc] at h
      rcases ih h with hfirst | ⟨before, c, rest, rfl, hbefore, hlabel, hk⟩
      · exact hturn hfirst
      · refine .inr ⟨child :: before, c, rest, rfl, ?_, hlabel, ?_⟩
        · intro c' hc'
          rcases List.mem_cons.mp hc' with rfl | hin
          · exact hacc
          · exact hbefore c' hin
        · rw [hk, List.length_cons, BitVec.toNat_add]
          have hone : (1 : BitVec 8).toNat = 1 := rfl
          omega
    · rw [parseChildren_cons_rejected hacc] at h
      exact hturn h

theorem overruns_of_reached {before rest : List Child} {child : Child}
    (hbefore : ∀ c ∈ before, c.Accepted partsize) (hlabel : child.label.isSome)
    (hlong : maxMtdPartitions ≤ before.length) :
    Overruns partsize (before ++ child :: rest) := by
  rcases Nat.eq_or_lt_of_le hlong with hlast | hlast
  · exact ⟨before, child, rest, rfl, hlast.symm, hbefore, hlabel⟩
  · refine ⟨before.take maxMtdPartitions, before[maxMtdPartitions],
      before.drop (maxMtdPartitions + 1) ++ child :: rest, ?_, ?_, ?_, ?_⟩
    · rw [← List.cons_append, ← List.append_assoc, ← List.drop_eq_getElem_cons hlast,
        List.take_append_drop]
    · rw [List.length_take, Nat.min_eq_left hlong]
    · exact fun c hc => hbefore c (List.mem_of_mem_take hc)
    · exact (hbefore _ (List.getElem_mem hlast)).1

theorem parseChildren_inTable (entry : ℕ → MtdPartition) (h : ¬Overruns partsize children) :
    ∀ k ∈ (parseChildren partsize children 0 ⟨entry, []⟩).2.2.written, k < maxMtdPartitions := by
  intro k hk
  rcases parseChildren_written_cases hk with
    hnone | ⟨before, child, rest, rfl, hbefore, hlabel, rfl⟩
  · exact absurd hnone List.not_mem_nil
  · have hshort : before.length < maxMtdPartitions := by
      by_contra hlong
      exact h (overruns_of_reached hbefore hlabel (Nat.le_of_not_lt hlong))
    simp only [maxMtdPartitions] at hshort ⊢
    rw [index_zero]
    omega

theorem mem_written_of_overruns (entry : ℕ → MtdPartition) (h : Overruns partsize children) :
    maxMtdPartitions ∈ (parseChildren partsize children 0 ⟨entry, []⟩).2.2.written := by
  obtain ⟨before, child, rest, rfl, hlength, hbefore, hlabel⟩ := h
  have hreached := parseChildren_reached (i := 0) (p := ⟨entry, []⟩) rest hbefore hlabel
    (by rw [hlength]; decide)
  rwa [hlength, index_zero, Nat.zero_add] at hreached

theorem overruns_of_length (h : ∀ c ∈ children, c.Accepted partsize)
    (hlong : maxMtdPartitions < children.length) : Overruns partsize children := by
  refine ⟨children.take maxMtdPartitions, children[maxMtdPartitions],
    children.drop (maxMtdPartitions + 1), ?_, ?_, ?_, ?_⟩
  · rw [← List.drop_eq_getElem_cons hlong, List.take_append_drop]
  · rw [List.length_take, Nat.min_eq_left hlong.le]
  · exact fun c hc => h c (List.mem_of_mem_take hc)
  · exact (h _ (List.getElem_mem hlong)).1

def tableIndex (bus cs : ℕ) : ℕ :=
  if bus = sfcBusid1 then bus + cs + 1 else bus + cs

theorem parseSpiPartition_eq {bus cs : ℕ} (hbus : bus ≤ sfcBusid1) (hcs : cs ≤ sfcCsid1)
    (nrPart : ℤ) (p : Parts) :
    hisfcDrvParseSpiPartition bus cs partsize (some children) nrPart p =
      if (hisfcDrvDtbParse partsize children nrPart p).1 ≠ 0 then
        hisfcDrvNormalParse (tableIndex bus cs) partsize
          (hisfcDrvDtbParse partsize children nrPart p).2.parts
      else (hisfcDrvDtbParse partsize children nrPart p).2 := by
  have hok : ¬(bus > sfcBusid1 ∨ cs > sfcCsid1) := by omega
  rw [hisfcDrvParseSpiPartition, if_neg hok]
  rfl

theorem dtbParse_rejected (nrPart : ℤ) (p : Parts) (h : ∃ c ∈ children, ¬c.Accepted partsize) :
    (hisfcDrvDtbParse partsize children nrPart p).1 ≠ 0 ∧
      (hisfcDrvDtbParse partsize children nrPart p).2.parts =
        (parseChildren partsize children 0 p).2.2 := by
  have hret : (parseChildren partsize children 0 p).1 ≠ 0 := by
    rw [ne_eq, parseChildren_ret]
    push Not
    exact h
  simp only [hisfcDrvDtbParse, if_pos hret]
  exact ⟨hret, trivial⟩

theorem dtbParse_accepted (nrPart : ℤ) (p : Parts) (h : ∀ c ∈ children, c.Accepted partsize) :
    hisfcDrvDtbParse partsize children nrPart p =
      (0, { nrPart := (parseChildren partsize children 0 p).2.1.toNat
            parts :=
              if (parseChildren partsize children 0 p).2.1 ≥ 1 then
                (parseChildren partsize children 0 p).2.2.setSize
                  ((parseChildren partsize children 0 p).2.1.toNat - 1)
                  (partsize - ((parseChildren partsize children 0 p).2.2.entry
                    ((parseChildren partsize children 0 p).2.1.toNat - 1)).offset)
              else (parseChildren partsize children 0 p).2.2 }) := by
  have hret : (parseChildren partsize children 0 p).1 = 0 := parseChildren_ret.mpr h
  simp only [hisfcDrvDtbParse, if_neg (not_not.mpr hret)]

theorem normalParse_sound {idx : ℕ} {node : List Child}
    (h : ∀ k ∈ p.written, k < maxMtdPartitions) :
    Sound idx partsize node (hisfcDrvNormalParse idx partsize p) where
  fits := by
    intro k hk
    have hzero : k = 0 := by
      simp only [hisfcDrvNormalParse] at hk
      omega
    simp [hisfcDrvNormalParse, Parts.write, wholeChip, hzero]
  inTable := by
    intro k hk
    rcases List.mem_cons.mp hk with rfl | hold
    · decide
    · exact h k hold
  fallsBack := fun _ => ⟨rfl, by simp [hisfcDrvNormalParse, Parts.write]⟩

theorem Fits.setSize {k : ℕ} (h : ∀ j ≤ k, Fits partsize (p.entry j)) :
    ∀ j ≤ k, Fits partsize ((p.setSize k (partsize - (p.entry k).offset)).entry j) := by
  intro j hj
  by_cases hlast : j = k
  · subst hlast
    have hoffset : (p.entry j).offset.toNat ≤ partsize.toNat := by
      have hfits := h j le_rfl
      unfold Fits at hfits
      omega
    simp only [Fits, Parts.setSize, Parts.write, Function.update_self]
    rw [BitVec.toNat_sub_of_le hoffset]
    omega
  · simp only [Parts.setSize, Parts.write]
    rw [Function.update_of_ne hlast]
    exact h j hj

theorem dtbParse_sound {idx : ℕ} {entry : ℕ → MtdPartition} (nrPart : ℤ)
    (hlength : children.length ≤ maxMtdPartitions) (h : ∀ c ∈ children, c.Valid partsize) :
    Sound idx partsize children (hisfcDrvDtbParse partsize children nrPart ⟨entry, []⟩).2 := by
  have hacc : ∀ c ∈ children, c.Accepted partsize := fun c hc => (h c hc).accepted
  have hlt : (0 : BitVec 8).toNat + children.length < 256 := by
    rw [index_zero]
    simp only [maxMtdPartitions] at hlength
    omega
  have hindex := parseChildren_index (p := ⟨entry, []⟩) hacc hlt
  have hfits := parseChildren_fits (p := ⟨entry, []⟩) h hlt nofun
  have hnot : ¬Overruns partsize children := by
    rintro ⟨before, child, rest, rfl, hbefore, -, -⟩
    rw [List.length_append, List.length_cons] at hlength
    omega
  have hin := parseChildren_inTable entry hnot
  rw [dtbParse_accepted nrPart _ hacc]
  generalize parseChildren partsize children 0 ⟨entry, []⟩ = run at hindex hfits hin
  obtain ⟨ret, i, p⟩ := run
  simp only [index_zero, Nat.zero_add] at hindex hfits hin ⊢
  refine ⟨?_, ?_, fun ⟨c, hc, hinvalid⟩ => absurd (h c hc) hinvalid⟩
  · intro k hk
    simp only at hk ⊢
    by_cases hone : i ≥ 1
    · rw [if_pos hone]
      exact Fits.setSize (fun j hj => hfits j (by bv_omega)) k (by omega)
    · bv_omega
  · intro k hk
    by_cases hone : i ≥ 1
    · rw [if_pos hone] at hk
      rcases List.mem_cons.mp hk with rfl | hold
      · simp only [maxMtdPartitions] at hlength ⊢
        bv_omega
      · exact hin k hold
    · rw [if_neg hone] at hk
      exact hin k hk

theorem Child.Accepted.valid_of_offset {child : Child} (h : child.Accepted partsize)
    (hzero : ∀ offset size, child.reg = some (offset, size) → offset = 0) :
    child.Valid partsize := by
  obtain ⟨hlabel, offset, size, hreg, hvalid⟩ := h
  cases hzero offset size hreg
  refine ⟨hlabel, 0, size, hreg, ?_⟩
  have hsum : (0 : BitVec 32) + size = size := BitVec.zero_add size
  rw [hisfcIsDtbParamValid, decide_eq_true_eq, hsum, BitVec.le_def,
    BitVec.toNat_setWidth_of_le (by omega)] at hvalid
  simpa using hvalid

theorem dtbParse_not_wholeChip {idx : ℕ} {entry : ℕ → MtdPartition} (nrPart : ℤ)
    (hlength : children.length ≤ maxMtdPartitions) (hacc : ∀ c ∈ children, c.Accepted partsize)
    (hinvalid : ∃ c ∈ children, ¬c.Valid partsize) :
    ¬((hisfcDrvDtbParse partsize children nrPart ⟨entry, []⟩).2.nrPart = 1 ∧
      (hisfcDrvDtbParse partsize children nrPart ⟨entry, []⟩).2.parts.entry 0 =
        wholeChip idx partsize) := by
  rintro ⟨hone, hwhole⟩
  have hlt : (0 : BitVec 8).toNat + children.length < 256 := by
    rw [index_zero]
    simp only [maxMtdPartitions] at hlength
    omega
  have hindex := parseChildren_index (p := ⟨entry, []⟩) hacc hlt
  rw [dtbParse_accepted nrPart _ hacc] at hone hwhole
  simp only [hindex, index_zero] at hone hwhole
  obtain ⟨child, rfl⟩ : ∃ child, children = [child] := List.length_eq_one_iff.mp (by omega)
  have hchild := hacc child List.mem_cons_self
  rw [parseChildren_cons_accepted hchild] at hwhole
  obtain ⟨-, offset, size, hreg, hoffset, -⟩ :=
    parseChild_entry (p := ⟨entry, []⟩) (0 : BitVec 8).toNat hchild
  have hstart := congrArg MtdPartition.offset hwhole
  have hge : (0 : BitVec 8) + 1 ≥ 1 := by decide
  simp only [parseChildren, if_pos hge, List.length_singleton, index_zero, Nat.zero_add, Nat.sub_self,
    Parts.setSize, Parts.write, Function.update_self, wholeChip] at hstart
  rw [index_zero] at hoffset
  rw [hoffset] at hstart
  have hoffsetZero : offset = 0 := by
    have hnat := congrArg BitVec.toNat hstart
    rw [BitVec.toNat_setWidth_of_le (by omega)] at hnat
    exact BitVec.eq_of_toNat_eq hnat
  obtain ⟨c, hc, hbad⟩ := hinvalid
  cases List.mem_singleton.mp hc
  refine hbad (hchild.valid_of_offset fun offset' size' hreg' => ?_)
  cases hreg.symm.trans hreg'
  exact hoffsetZero

/-- The table is sound exactly when the parse gives up in time or the children are few
and valid. -/
theorem parseSpiPartition_sound {bus cs : ℕ} (hbus : bus ≤ sfcBusid1) (hcs : cs ≤ sfcCsid1)
    (partsize : BitVec 64) (node : List Child) (nrPart : ℤ) (entry : ℕ → MtdPartition) :
    Sound (tableIndex bus cs) partsize node
        (hisfcDrvParseSpiPartition bus cs partsize (some node) nrPart ⟨entry, []⟩) ↔
      ((∃ c ∈ node, ¬c.Accepted partsize) ∧ ¬Overruns partsize node) ∨
        (node.length ≤ maxMtdPartitions ∧ ∀ c ∈ node, c.Valid partsize) := by
  rw [parseSpiPartition_eq hbus hcs]
  by_cases hrejected : ∃ c ∈ node, ¬c.Accepted partsize
  · obtain ⟨hret, hparts⟩ := dtbParse_rejected nrPart ⟨entry, []⟩ hrejected
    rw [if_pos hret]
    constructor
    · intro hsound
      refine .inl ⟨hrejected, fun hover => ?_⟩
      have hwritten := mem_written_of_overruns entry hover
      rw [← hparts] at hwritten
      exact lt_irrefl _ (hsound.inTable _ (List.mem_cons_of_mem _ hwritten))
    · rintro (⟨-, hover⟩ | ⟨-, hvalid⟩)
      · apply normalParse_sound
        rw [hparts]
        exact parseChildren_inTable entry hover
      · obtain ⟨c, hc, hnot⟩ := hrejected
        exact absurd (hvalid c hc).accepted hnot
  · have hacc : ∀ c ∈ node, c.Accepted partsize := by
      push Not at hrejected
      exact hrejected
    have hret : (hisfcDrvDtbParse partsize node nrPart ⟨entry, []⟩).1 = 0 := by
      rw [dtbParse_accepted nrPart _ hacc]
    rw [if_neg (not_not.mpr hret)]
    constructor
    · intro hsound
      have hlength : node.length ≤ maxMtdPartitions := by
        by_contra hlong
        have hover := overruns_of_length hacc (Nat.lt_of_not_le hlong)
        have hwritten := mem_written_of_overruns entry hover
        rw [dtbParse_accepted nrPart _ hacc] at hsound
        refine lt_irrefl _ (hsound.inTable maxMtdPartitions ?_)
        simp only
        split
        · exact List.mem_cons_of_mem _ hwritten
        · exact hwritten
      refine .inr ⟨hlength, ?_⟩
      by_contra hnot
      push Not at hnot
      exact dtbParse_not_wholeChip nrPart hlength hacc hnot (hsound.fallsBack hnot)
    · rintro (⟨hrej, -⟩ | ⟨hlength, hvalid⟩)
      · exact absurd hrej hrejected
      · exact dtbParse_sound nrPart hlength hvalid

theorem parseSpiPartition_sound_boot :
    Sound 0 0x1000000
        [⟨some "boot", some (0, 0x80000)⟩, ⟨some "env", some (0x80000, 0x10000)⟩]
        (hisfcDrvParseSpiPartition 0 0 0x1000000
          (some [⟨some "boot", some (0, 0x80000)⟩, ⟨some "env", some (0x80000, 0x10000)⟩]) 0
          ⟨fun _ => wholeChip 0 0, []⟩) := by
  refine (parseSpiPartition_sound (Nat.zero_le 1) (Nat.zero_le 1) _ _ 0 _).mpr (.inr ⟨?_, ?_⟩)
  · decide
  intro c hc
  rcases List.mem_cons.mp hc with rfl | hlast
  · exact ⟨rfl, 0, 0x80000, rfl, by decide⟩
  · cases List.mem_singleton.mp hlast
    exact ⟨rfl, 0x80000, 0x10000, rfl, by decide⟩

/-- An offset near the top of 32 bits whose sum with the size wraps passes the check. -/
theorem parseSpiPartition_wraps :
    ¬∀ (partsize : BitVec 64) (node : List Child),
      Sound 0 partsize node
        (hisfcDrvParseSpiPartition 0 0 partsize (some node) 0 ⟨fun _ => wholeChip 0 0, []⟩) := by
  intro hall
  have hsound := hall 0x1000000 [⟨some "boot", some (0xffff0000, 0x20000)⟩]
  have hfits := hsound.fits 0 (by decide)
  revert hfits
  decide

end HiMpu.SfcPartitions
