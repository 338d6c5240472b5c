import HiMpu.BitmapRegion
import HiMpu.BmTypes
import HiMpu.TransitionSystem

/-!
# The MSI vectors of the PCIe port

The interrupt domain of `pcie_framework.c`.  A request for a number of vectors reserves
the smallest block of the bitmap that holds them, and the release of a number of vectors
frees the smallest block that holds that number.  The core of Linux gives the vectors of a
request back together or one at a time.
-/

namespace HiMpu.PcieMsi

open BitmapRegion

def maxMsiIrqsPerCtrl : ℕ := 32
def maxMsiIrqs : ℕ := 32
def enospc : ℤ := 28

structure Port where
  msiIrqInUse : Finset ℕ
  irqData : ℕ → Option ℕ
  irqStatus : BitVec 32
  msiIntr0Mask : BitVec 32
  msiIntr0Status : BitVec 32

def setInfo (irqData : ℕ → Option ℕ) (virq bit nrIrqs : ℕ) : ℕ → Option ℕ := fun v =>
  if virq ≤ v ∧ v < virq + nrIrqs then some (bit + (v - virq)) else irqData v

def hipPcieIrqDomainAlloc (p : Port) (virq nrIrqs : ℕ) : Port × ℤ :=
  match findFreeRegion p.msiIrqInUse maxMsiIrqs (orderBase2 nrIrqs) with
  | none => (p, -enospc)
  | some bit =>
    ({ p with
      msiIrqInUse := p.msiIrqInUse ∪ block bit (orderBase2 nrIrqs)
      irqData := setInfo p.irqData virq bit nrIrqs }, 0)

def hipPcieIrqDomainFree (p : Port) (virq nrIrqs : ℕ) : Port :=
  match p.irqData virq with
  | none => p
  | some hwirq =>
    { p with msiIrqInUse := releaseRegion p.msiIrqInUse hwirq (orderBase2 nrIrqs) }

def hipPciBottomMask (p : Port) (hwirq : ℕ) : Port :=
  let irqStatus := p.irqStatus &&& ~~~(1#32 <<< (hwirq % maxMsiIrqsPerCtrl))
  { p with irqStatus := irqStatus, msiIntr0Mask := ~~~irqStatus }

def hipPciBottomUnmask (p : Port) (hwirq : ℕ) : Port :=
  let irqStatus := p.irqStatus ||| 1#32 <<< (hwirq % maxMsiIrqsPerCtrl)
  { p with irqStatus := irqStatus, msiIntr0Mask := ~~~irqStatus }

def hipPciBottomAck (p : Port) (hwirq : ℕ) : Port :=
  { p with msiIntr0Status := p.msiIntr0Status &&& ~~~(1#32 <<< (hwirq % maxMsiIrqsPerCtrl)) }

def findNextBit (val : BitVec 32) (pos : ℕ) : ℕ :=
  ((List.range maxMsiIrqsPerCtrl).find? fun i => decide (pos ≤ i) && val.getLsbD i).getD
    maxMsiIrqsPerCtrl

def handleFrom (val : BitVec 32) (first : ℕ) : ℕ → ℕ → List ℕ
  | 0, _ => []
  | rounds + 1, pos =>
    let pos := findNextBit val pos
    if pos = maxMsiIrqsPerCtrl then []
    else (first + pos) :: handleFrom val first rounds (pos + 1)

def hipHandleMsiIrq (status : ℕ → BitVec 32) : List ℕ :=
  (List.range (maxMsiIrqs / maxMsiIrqsPerCtrl)).flatMap fun i =>
    if status i = 0 then []
    else handleFrom (status i) (i * maxMsiIrqsPerCtrl) (maxMsiIrqsPerCtrl + 1) 0

structure Alloc where
  bit : ℕ
  nrIrqs : ℕ
  freed : Finset ℕ

def Alloc.block (a : Alloc) : Finset ℕ := BitmapRegion.block a.bit (orderBase2 a.nrIrqs)

def Alloc.vectors (a : Alloc) : Finset ℕ := Finset.Ico a.bit (a.bit + a.nrIrqs) \ a.freed

def Alloc.reserved (a : Alloc) : Finset ℕ := a.block \ a.freed

structure State where
  port : Port
  live : ℕ → Option Alloc
  unmasked : ℕ → Bool
  written : Bool

inductive Event where
  | alloc (virq nrIrqs : ℕ)
  | free (virq : ℕ)
  | freeOne (virq i : ℕ)
  | mask (hwirq : ℕ)
  | unmask (hwirq : ℕ)
  | ack (hwirq : ℕ)
  | arrive (pending : BitVec 32)

/-- The core hands out virtual interrupts that are not in use. -/
def State.Fresh (s : State) (virq nrIrqs : ℕ) : Prop :=
  ∀ v, virq ≤ v → v < virq + max 1 nrIrqs → s.port.irqData v = none ∧ s.live v = none

def Alloc.afterFree (a : Alloc) (i : ℕ) : Option Alloc :=
  let a := { a with freed := insert (a.bit + i) a.freed }
  if a.vectors = ∅ then none else some a

inductive Step (s : State) : Event → State → Prop
  | granted {virq nrIrqs bit : ℕ} (hfresh : s.Fresh virq nrIrqs)
      (hfind : findFreeRegion s.port.msiIrqInUse maxMsiIrqs (orderBase2 nrIrqs) = some bit) :
      Step s (.alloc virq nrIrqs) { s with
        port := (hipPcieIrqDomainAlloc s.port virq nrIrqs).1
        live := Function.update s.live virq (some ⟨bit, nrIrqs, ∅⟩) }
  | refused {virq nrIrqs : ℕ} (hfresh : s.Fresh virq nrIrqs)
      (hret : (hipPcieIrqDomainAlloc s.port virq nrIrqs).2 ≠ 0) :
      Step s (.alloc virq nrIrqs)
        { s with port := (hipPcieIrqDomainAlloc s.port virq nrIrqs).1 }
  | free {virq : ℕ} {a : Alloc} (hlive : s.live virq = some a) (hfreed : a.freed = ∅) :
      Step s (.free virq) { s with
        port := { hipPcieIrqDomainFree s.port virq a.nrIrqs with
          irqData := fun v => if virq ≤ v ∧ v < virq + a.nrIrqs then none else s.port.irqData v }
        live := Function.update s.live virq none }
  | freeOne {virq i : ℕ} {a : Alloc} (hlive : s.live virq = some a) (hi : i < a.nrIrqs)
      (hfreed : a.bit + i ∉ a.freed) :
      Step s (.freeOne virq i) { s with
        port := { hipPcieIrqDomainFree s.port (virq + i) 1 with
          irqData := Function.update s.port.irqData (virq + i) none }
        live := Function.update s.live virq (a.afterFree i) }
  | mask {hwirq : ℕ} (hlt : hwirq < maxMsiIrqs) :
      Step s (.mask hwirq) { s with
        port := hipPciBottomMask s.port hwirq
        unmasked := Function.update s.unmasked hwirq false
        written := true }
  | unmask {hwirq : ℕ} (hlt : hwirq < maxMsiIrqs) :
      Step s (.unmask hwirq) { s with
        port := hipPciBottomUnmask s.port hwirq
        unmasked := Function.update s.unmasked hwirq true
        written := true }
  | ack {hwirq : ℕ} (hlt : hwirq < maxMsiIrqs) :
      Step s (.ack hwirq) { s with port := hipPciBottomAck s.port hwirq }
  | arrive (pending : BitVec 32) : Step s (.arrive pending) { s with
      port := { s.port with msiIntr0Status := s.port.msiIntr0Status ||| pending } }

structure Initial (s : State) : Prop where
  inUse : s.port.msiIrqInUse = ∅
  irqData : ∀ v, s.port.irqData v = none
  irqStatus : s.port.irqStatus = 0
  live : ∀ v, s.live v = none
  unmasked : ∀ v, s.unmasked v = false
  written : s.written = false

def system : TransitionSystem State Event := ⟨Initial, Step⟩

structure Exclusive (s : State) : Prop where
  /-- Each block begins at a multiple of the power of two that its vectors need. -/
  aligned : ∀ v a, s.live v = some a →
    2 ^ orderBase2 a.nrIrqs ∣ a.bit ∧ a.bit + a.nrIrqs ≤ maxMsiIrqs
  disjoint : ∀ v w a b, s.live v = some a → s.live w = some b → v ≠ w →
    Disjoint a.vectors b.vectors
  /-- Its virtual interrupts have its vectors, one after another. -/
  consecutive : ∀ v a, s.live v = some a → ∀ i < a.nrIrqs, a.bit + i ∉ a.freed →
    s.port.irqData (v + i) = some (a.bit + i)

def Mirrored (s : State) : Prop :=
  s.written = true → ∀ v < maxMsiIrqs,
    s.port.msiIntr0Mask.getLsbD v = false ↔ s.unmasked v = true

def Reusable (s : State) : Prop :=
  (∀ v, s.live v = none) → s.port.msiIrqInUse = ∅ ∧
    findFreeRegion s.port.msiIrqInUse maxMsiIrqs (orderBase2 maxMsiIrqs) = some 0

/-- Vectors are freed one at a time only if their number is a power of two, and together
only if there are any. -/
def RoundFrees (s : State) : Event → Prop
  | .free virq => ∀ a, s.live virq = some a → 0 < a.nrIrqs
  | .freeOne virq _ => ∀ a, s.live virq = some a → 2 ^ orderBase2 a.nrIrqs = a.nrIrqs
  | .alloc _ _ | .mask _ | .unmask _ | .ack _ | .arrive _ => True

structure Inv (clean : Prop) (s : State) : Prop where
  aligned : ∀ v a, s.live v = some a →
    2 ^ orderBase2 a.nrIrqs ∣ a.bit ∧ a.bit + 2 ^ orderBase2 a.nrIrqs ≤ maxMsiIrqs
  inUse : ∀ v a, s.live v = some a → a.reserved ⊆ s.port.msiIrqInUse
  disjoint : ∀ v w a b, s.live v = some a → s.live w = some b → v ≠ w →
    Disjoint a.reserved b.reserved
  info : ∀ v a, s.live v = some a → ∀ i < a.nrIrqs, a.bit + i ∉ a.freed →
    s.port.irqData (v + i) = some (a.bit + i)
  empty : ∀ v a, s.live v = some a → a.nrIrqs = 0 → s.port.irqData v = none
  owned : clean → ∀ x ∈ s.port.msiIrqInUse, ∃ v a, s.live v = some a ∧ x ∈ a.reserved
  status : ∀ v < maxMsiIrqs, s.port.irqStatus.getLsbD v = s.unmasked v
  mask : s.written = true → s.port.msiIntr0Mask = ~~~s.port.irqStatus

variable {clean : Prop} {s s' : State} {a b : Alloc} {v w i : ℕ}

theorem Alloc.vectors_subset (a : Alloc) : a.vectors ⊆ a.reserved := by
  have hle := le_two_pow_orderBase2 a.nrIrqs
  refine Finset.sdiff_subset_sdiff (fun x hx => ?_) le_rfl
  rw [Finset.mem_Ico] at hx
  exact Finset.mem_Ico.mpr ⟨hx.1, by omega⟩

theorem Alloc.mem_reserved (hi : i < a.nrIrqs) (hfreed : a.bit + i ∉ a.freed) :
    a.bit + i ∈ a.reserved := by
  refine a.vectors_subset (Finset.mem_sdiff.mpr ⟨?_, hfreed⟩)
  exact Finset.mem_Ico.mpr ⟨Nat.le_add_right _ _, by omega⟩

theorem Inv.virq_ne (h : Inv clean s) {j : ℕ} (hv : s.live v = some a) (hw : s.live w = some b)
    (hne : v ≠ w) (hi : i < a.nrIrqs) (hfreed : a.bit + i ∉ a.freed) (hj : j < b.nrIrqs)
    (hfreed' : b.bit + j ∉ b.freed) : v + i ≠ w + j := by
  intro heq
  have hinfo := h.info v a hv i hi hfreed
  rw [heq, h.info w b hw j hj hfreed', Option.some.injEq] at hinfo
  have hmem := Alloc.mem_reserved hi hfreed
  have hmem' := Alloc.mem_reserved hj hfreed'
  rw [hinfo] at hmem'
  exact Finset.disjoint_left.mp (h.disjoint v w a b hv hw hne) hmem hmem'

theorem alloc_granted {virq nrIrqs bit : ℕ} {p : Port}
    (hfind : findFreeRegion p.msiIrqInUse maxMsiIrqs (orderBase2 nrIrqs) = some bit) :
    hipPcieIrqDomainAlloc p virq nrIrqs = ({ p with
      msiIrqInUse := p.msiIrqInUse ∪ block bit (orderBase2 nrIrqs)
      irqData := setInfo p.irqData virq bit nrIrqs }, 0) := by
  unfold hipPcieIrqDomainAlloc
  rw [hfind]

theorem alloc_refused {virq nrIrqs : ℕ} {p : Port}
    (hret : (hipPcieIrqDomainAlloc p virq nrIrqs).2 ≠ 0) :
    (hipPcieIrqDomainAlloc p virq nrIrqs).1 = p := by
  unfold hipPcieIrqDomainAlloc at hret ⊢
  cases hfind : findFreeRegion p.msiIrqInUse maxMsiIrqs (orderBase2 nrIrqs) with
  | none => rfl
  | some bit =>
    rw [hfind] at hret
    exact absurd rfl hret

theorem Inv.granted {virq nrIrqs bit : ℕ} (h : Inv clean s) (hfresh : s.Fresh virq nrIrqs)
    (hfind : findFreeRegion s.port.msiIrqInUse maxMsiIrqs (orderBase2 nrIrqs) = some bit) :
    Inv clean { s with
      port := (hipPcieIrqDomainAlloc s.port virq nrIrqs).1
      live := Function.update s.live virq (some ⟨bit, nrIrqs, ∅⟩) } := by
  rw [alloc_granted hfind]
  obtain ⟨hdvd, hend, hfree⟩ := findFreeRegion_some hfind
  have hreserved : Alloc.reserved ⟨bit, nrIrqs, ∅⟩ = block bit (orderBase2 nrIrqs) :=
    Finset.sdiff_empty
  have hcases : ∀ v a, Function.update s.live virq (some ⟨bit, nrIrqs, ∅⟩) v = some a →
      v = virq ∧ a = ⟨bit, nrIrqs, ∅⟩ ∨ v ≠ virq ∧ s.live v = some a := by
    intro v a hv
    by_cases hsame : v = virq
    · subst hsame
      rw [Function.update_self] at hv
      exact Or.inl ⟨rfl, (Option.some.inj hv).symm⟩
    · rw [Function.update_of_ne hsame] at hv
      exact Or.inr ⟨hsame, hv⟩
  have hapart : ∀ v a, s.live v = some a →
      Disjoint (block bit (orderBase2 nrIrqs)) a.reserved :=
    fun v a hv => hfree.mono_right (h.inUse v a hv)
  refine ⟨fun v a hv => ?_, fun v a hv => ?_, fun v w a b hv hw hne => ?_,
    fun v a hv i hi hfreed => ?_, fun v a hv hzero => ?_, fun hclean x hx => ?_, h.status,
    h.mask⟩
  · rcases hcases v a hv with ⟨-, rfl⟩ | ⟨-, hold⟩
    · exact ⟨hdvd, hend⟩
    · exact h.aligned v a hold
  · rcases hcases v a hv with ⟨-, rfl⟩ | ⟨-, hold⟩
    · rw [hreserved]
      exact Finset.subset_union_right
    · exact (h.inUse v a hold).trans Finset.subset_union_left
  · rcases hcases v a hv with ⟨rfl, rfl⟩ | ⟨-, hold⟩
    · rcases hcases w b hw with ⟨rfl, -⟩ | ⟨-, hold'⟩
      · exact absurd rfl hne
      · rw [hreserved]
        exact hapart w b hold'
    · rcases hcases w b hw with ⟨-, rfl⟩ | ⟨-, hold'⟩
      · rw [hreserved]
        exact (hapart v a hold).symm
      · exact h.disjoint v w a b hold hold' hne
  · change setInfo s.port.irqData virq bit nrIrqs (v + i) = some (a.bit + i)
    rcases hcases v a hv with ⟨rfl, rfl⟩ | ⟨-, hold⟩
    · have hrange : v ≤ v + i ∧ v + i < v + nrIrqs := ⟨Nat.le_add_right _ _, Nat.add_lt_add_left hi _⟩
      rw [setInfo, if_pos hrange, Nat.add_sub_cancel_left]
    · have hinfo := h.info v a hold i hi hfreed
      have hout : ¬ (virq ≤ v + i ∧ v + i < virq + nrIrqs) := by
        rintro ⟨hlow, hhigh⟩
        rw [(hfresh (v + i) hlow (by omega)).1] at hinfo
        cases hinfo
      rw [setInfo, if_neg hout]
      exact hinfo
  · change setInfo s.port.irqData virq bit nrIrqs v = none
    rcases hcases v a hv with ⟨rfl, rfl⟩ | ⟨-, hold⟩
    · have hnone : nrIrqs = 0 := hzero
      have hout : ¬ (v ≤ v ∧ v < v + nrIrqs) := by omega
      rw [setInfo, if_neg hout]
      exact (hfresh v le_rfl (by omega)).1
    · have hout : ¬ (virq ≤ v ∧ v < virq + nrIrqs) := by
        rintro ⟨hlow, hhigh⟩
        rw [(hfresh v hlow (by omega)).2] at hold
        cases hold
      rw [setInfo, if_neg hout]
      exact h.empty v a hold hzero
  · rcases Finset.mem_union.mp hx with hold | hnew
    · obtain ⟨v, a, hv, hmem⟩ := h.owned hclean x hold
      have hne : v ≠ virq := by
        rintro rfl
        rw [(hfresh v le_rfl (by omega)).2] at hv
        cases hv
      exact ⟨v, a, (Function.update_of_ne hne _ _).trans hv, hmem⟩
    · exact ⟨virq, _, Function.update_self _ _ _, hreserved ▸ hnew⟩

theorem Inv.release {virq : ℕ} {gone : Finset ℕ} {irqData : ℕ → Option ℕ}
    (left : Option Alloc) (h : Inv clean s) (hlive : s.live virq = some a)
    (hgone : gone ⊆ a.reserved)
    (hleft : ∀ b, left = some b → b.bit = a.bit ∧ b.nrIrqs = a.nrIrqs ∧
      b.reserved = a.reserved \ gone ∧ ∀ x, x ∉ b.freed → x ∉ a.freed ∧ x ∉ gone)
    (hnone : clean → left = none → a.reserved ⊆ gone)
    (hkeep : ∀ x, irqData x = s.port.irqData x ∨ irqData x = none ∧
      ∃ i < a.nrIrqs, x = virq + i ∧ a.bit + i ∉ a.freed ∧ (left.isSome → a.bit + i ∈ gone)) :
    Inv clean { s with
      port := { s.port with msiIrqInUse := s.port.msiIrqInUse \ gone, irqData := irqData }
      live := Function.update s.live virq left } := by
  have hcases : ∀ v b, Function.update s.live virq left v = some b →
      v = virq ∧ left = some b ∨ v ≠ virq ∧ s.live v = some b := by
    intro v b hv
    by_cases hsame : v = virq
    · subst hsame
      rw [Function.update_self] at hv
      exact Or.inl ⟨rfl, hv⟩
    · rw [Function.update_of_ne hsame] at hv
      exact Or.inr ⟨hsame, hv⟩
  have hsub : ∀ b, left = some b → b.reserved ⊆ a.reserved := fun b hb => by
    rw [(hleft b hb).2.2.1]
    exact Finset.sdiff_subset
  refine ⟨fun v b hv => ?_, fun v b hv => ?_, fun v w b c hv hw hne => ?_,
    fun v b hv i hi hfreed => ?_, fun v b hv hzero => ?_, fun hclean x hx => ?_, h.status,
    h.mask⟩
  · rcases hcases v b hv with ⟨-, hb⟩ | ⟨-, hold⟩
    · obtain ⟨hbit, hnr, -⟩ := hleft b hb
      rw [hbit, hnr]
      exact h.aligned virq a hlive
    · exact h.aligned v b hold
  · rcases hcases v b hv with ⟨-, hb⟩ | ⟨hne, hold⟩
    · rw [(hleft b hb).2.2.1]
      exact Finset.sdiff_subset_sdiff (h.inUse virq a hlive) le_rfl
    · refine Finset.subset_sdiff.mpr ⟨h.inUse v b hold, ?_⟩
      exact (h.disjoint v virq b a hold hlive hne).mono_right hgone
  · rcases hcases v b hv with ⟨rfl, hb⟩ | ⟨hv', hold⟩
    · rcases hcases w c hw with ⟨rfl, -⟩ | ⟨-, hold'⟩
      · exact absurd rfl hne
      · exact (h.disjoint v w a c hlive hold' hne).mono_left (hsub b hb)
    · rcases hcases w c hw with ⟨rfl, hc⟩ | ⟨-, hold'⟩
      · exact (h.disjoint v w b a hold hlive hne).mono_right (hsub c hc)
      · exact h.disjoint v w b c hold hold' hne
  · change irqData (v + i) = some (b.bit + i)
    rcases hcases v b hv with ⟨rfl, hb⟩ | ⟨hv', hold⟩
    · obtain ⟨hbit, hnr, -, hfree⟩ := hleft b hb
      rw [hnr] at hi
      rw [hbit] at hfreed ⊢
      obtain ⟨hnot, hstay⟩ := hfree _ hfreed
      rcases hkeep (v + i) with hsame | ⟨-, j, -, hj, -, hin⟩
      · rw [hsame]
        exact h.info v a hlive i hi hnot
      · have hij : i = j := by omega
        subst hij
        exact absurd (hin (by rw [hb]; rfl)) hstay
    · rcases hkeep (v + i) with hsame | ⟨-, j, hj, heq, hnot, -⟩
      · rw [hsame]
        exact h.info v b hold i hi hfreed
      · exact absurd heq (h.virq_ne hold hlive hv' hi hfreed hj hnot)
  · change irqData v = none
    rcases hkeep v with hsame | ⟨hgone', -⟩
    · rw [hsame]
      rcases hcases v b hv with ⟨rfl, hb⟩ | ⟨-, hold⟩
      · exact h.empty v a hlive ((hleft b hb).2.1.symm.trans hzero)
      · exact h.empty v b hold hzero
    · exact hgone'
  · obtain ⟨hin, hout⟩ := Finset.mem_sdiff.mp hx
    obtain ⟨v, b, hv, hmem⟩ := h.owned hclean x hin
    by_cases hsame : v = virq
    · subst hsame
      rw [hlive, Option.some.injEq] at hv
      subst hv
      cases hl : left with
      | none => exact absurd (hnone hclean hl hmem) hout
      | some c =>
        refine ⟨v, c, Function.update_self _ _ _, ?_⟩
        rw [(hleft c hl).2.2.1]
        exact Finset.mem_sdiff.mpr ⟨hmem, hout⟩
    · exact ⟨v, b, (Function.update_of_ne hsame _ _).trans hv, hmem⟩

theorem Inv.free {virq : ℕ} (h : Inv clean s) (hlive : s.live virq = some a)
    (hfreed : a.freed = ∅) (hclean : clean → 0 < a.nrIrqs) :
    Inv clean { s with
      port := { hipPcieIrqDomainFree s.port virq a.nrIrqs with
        irqData := fun v => if virq ≤ v ∧ v < virq + a.nrIrqs then none else s.port.irqData v }
      live := Function.update s.live virq none } := by
  have hreserved : a.reserved = a.block := by
    rw [Alloc.reserved, hfreed]
    exact Finset.sdiff_empty
  have hkeep : ∀ x, (if virq ≤ x ∧ x < virq + a.nrIrqs then none else s.port.irqData x) =
      s.port.irqData x ∨ (if virq ≤ x ∧ x < virq + a.nrIrqs then none
        else s.port.irqData x) = none ∧ ∃ i < a.nrIrqs, x = virq + i ∧ a.bit + i ∉ a.freed ∧
          ((none : Option Alloc).isSome → a.bit + i ∈ a.block) := by
    intro x
    by_cases hrange : virq ≤ x ∧ x < virq + a.nrIrqs
    · refine Or.inr ⟨if_pos hrange, x - virq, by omega, by omega, ?_, fun hsome => nomatch hsome⟩
      rw [hfreed]
      exact Finset.notMem_empty _
    · exact Or.inl (if_neg hrange)
  by_cases hzero : a.nrIrqs = 0
  · -- no interrupt has data that would lead to the bit
    have hport : hipPcieIrqDomainFree s.port virq a.nrIrqs = s.port := by
      unfold hipPcieIrqDomainFree
      rw [h.empty virq a hlive hzero]
    have hout : ∀ x, ¬ (virq ≤ x ∧ x < virq + a.nrIrqs) := fun x => by omega
    have hrelease := h.release none hlive (Finset.empty_subset _) (fun b hb => nomatch hb)
      (fun hc => absurd hzero (hclean hc).ne') fun x => Or.inl rfl
    rw [Finset.sdiff_empty] at hrelease
    rw [hport]
    simp only [hout, if_false]
    exact hrelease
  · have hpos : 0 < a.nrIrqs := Nat.pos_of_ne_zero hzero
    have hdata : s.port.irqData virq = some a.bit := by
      have hfirst := h.info virq a hlive 0 hpos (by rw [hfreed]; exact Finset.notMem_empty _)
      exact hfirst
    have hport : hipPcieIrqDomainFree s.port virq a.nrIrqs =
        { s.port with msiIrqInUse := s.port.msiIrqInUse \ a.block } := by
      unfold hipPcieIrqDomainFree
      rw [hdata]
      rfl
    rw [hport]
    exact h.release none hlive hreserved.ge (fun b hb => nomatch hb) (fun _ _ => hreserved.le) hkeep

theorem orderBase2_one : orderBase2 1 = 0 := Nat.clog_one_right 2

theorem block_zero (x : ℕ) : block x 0 = {x} := by
  rw [block, pow_zero, Nat.Ico_succ_singleton]

theorem Alloc.afterFree_some (hafter : a.afterFree i = some b) :
    b = { a with freed := insert (a.bit + i) a.freed } := by
  by_cases hempty : Alloc.vectors { a with freed := insert (a.bit + i) a.freed } = ∅
  · have hnone := (if_pos hempty).symm.trans hafter
    cases hnone
  · have hsome := (if_neg hempty).symm.trans hafter
    exact (Option.some.inj hsome).symm

theorem Alloc.afterFree_none (hafter : a.afterFree i = none) :
    Alloc.vectors { a with freed := insert (a.bit + i) a.freed } = ∅ := by
  by_contra hempty
  have hsome := (if_neg hempty).symm.trans hafter
  cases hsome

theorem Inv.freeOne {virq : ℕ} (h : Inv clean s) (hlive : s.live virq = some a)
    (hi : i < a.nrIrqs) (hfreed : a.bit + i ∉ a.freed)
    (hclean : clean → 2 ^ orderBase2 a.nrIrqs = a.nrIrqs) :
    Inv clean { s with
      port := { hipPcieIrqDomainFree s.port (virq + i) 1 with
        irqData := Function.update s.port.irqData (virq + i) none }
      live := Function.update s.live virq (a.afterFree i) } := by
  have hport : hipPcieIrqDomainFree s.port (virq + i) 1 =
      { s.port with msiIrqInUse := s.port.msiIrqInUse \ {a.bit + i} } := by
    unfold hipPcieIrqDomainFree
    rw [h.info virq a hlive i hi hfreed, orderBase2_one]
    simp only [releaseRegion, block_zero]
  have hmem : {a.bit + i} ⊆ a.reserved :=
    Finset.singleton_subset_iff.mpr (Alloc.mem_reserved hi hfreed)
  rw [hport]
  refine h.release (a.afterFree i) hlive hmem (fun b hb => ?_) (fun hc hnone => ?_) fun x => ?_
  · rw [Alloc.afterFree_some hb]
    refine ⟨rfl, rfl, ?_, fun x hx => ?_⟩
    · rw [Alloc.reserved, Alloc.reserved, Finset.sdiff_insert]
      exact Finset.erase_eq _ _
    · rw [Finset.mem_insert, not_or] at hx
      exact ⟨hx.2, fun hin => hx.1 (Finset.mem_singleton.mp hin)⟩
  · -- every vector is freed, and the block is its vectors
    intro x hx
    obtain ⟨hblock, hnot⟩ := Finset.mem_sdiff.mp hx
    rw [Alloc.block, block, hclean hc] at hblock
    have hin : x ∈ insert (a.bit + i) a.freed := by
      by_contra hout
      have hleft : x ∈ Alloc.vectors { a with freed := insert (a.bit + i) a.freed } :=
        Finset.mem_sdiff.mpr ⟨hblock, hout⟩
      rw [Alloc.afterFree_none hnone] at hleft
      exact Finset.notMem_empty x hleft
    rcases Finset.mem_insert.mp hin with heq | hold
    · exact Finset.mem_singleton.mpr heq
    · exact absurd hold hnot
  · by_cases hx : x = virq + i
    · refine Or.inr ⟨?_, i, hi, hx, hfreed, fun _ => Finset.mem_singleton_self _⟩
      rw [hx, Function.update_self]
    · exact Or.inl (Function.update_of_ne hx _ _)

theorem getLsbD_one_shiftLeft {n v : ℕ} (hv : v < 32) :
    (1#32 <<< n).getLsbD v = decide (v = n) := by
  rw [BitVec.getLsbD_shiftLeft, BitVec.getLsbD_one]
  by_cases hlt : v < n
  · have hne : v ≠ n := by omega
    simp [hlt, hne]
  · have hiff : v - n = 0 ↔ v = n := by omega
    simp [hlt, hv, hiff]

theorem Inv.mask_step {hwirq : ℕ} {on : Bool} {status : BitVec 32} (h : Inv clean s)
    (hstatus : ∀ v < maxMsiIrqs, status.getLsbD v =
      if v = hwirq then on else s.port.irqStatus.getLsbD v) :
    Inv clean { s with
      port := { s.port with irqStatus := status, msiIntr0Mask := ~~~status }
      unmasked := Function.update s.unmasked hwirq on
      written := true } := by
  refine { h with status := fun v hv => ?_, mask := fun _ => rfl }
  change status.getLsbD v = Function.update s.unmasked hwirq on v
  rw [hstatus v hv]
  by_cases hsame : v = hwirq
  · rw [if_pos hsame, hsame, Function.update_self]
  · rw [if_neg hsame, Function.update_of_ne hsame, h.status v hv]

theorem Inv.step {e : Event} (h : Inv clean s) (hallowed : clean → RoundFrees s e)
    (hstep : Step s e s') : Inv clean s' := by
  cases hstep with
  | granted hfresh hfind => exact h.granted hfresh hfind
  | refused hfresh hret =>
    rw [alloc_refused hret]
    exact h
  | free hlive hfreed => exact h.free hlive hfreed fun hc => hallowed hc _ hlive
  | freeOne hlive hi hfreed => exact h.freeOne hlive hi hfreed fun hc => hallowed hc _ hlive
  | @mask hwirq hlt =>
    refine h.mask_step fun v hv => ?_
    have hlt : hwirq < 32 := hlt
    have hv : v < 32 := hv
    have hmod : hwirq % maxMsiIrqsPerCtrl = hwirq := Nat.mod_eq_of_lt hlt
    rw [hmod, BitVec.getLsbD_and, BitVec.getLsbD_not, getLsbD_one_shiftLeft hv]
    by_cases hsame : v = hwirq
    · simp [hsame]
    · simp [hsame, hv]
  | @unmask hwirq hlt =>
    refine h.mask_step fun v hv => ?_
    have hlt : hwirq < 32 := hlt
    have hv : v < 32 := hv
    have hmod : hwirq % maxMsiIrqsPerCtrl = hwirq := Nat.mod_eq_of_lt hlt
    rw [hmod, BitVec.getLsbD_or, getLsbD_one_shiftLeft hv]
    by_cases hsame : v = hwirq
    · simp [hsame]
    · simp [hsame]
  | ack => exact { h with }
  | arrive => exact { h with }

theorem Initial.inv (h : Initial s) : Inv clean s := by
  have hlive : ∀ v a, s.live v = some a → False := fun v a hv => by
    rw [h.live v] at hv
    cases hv
  refine ⟨fun v a hv => (hlive v a hv).elim, fun v a hv => (hlive v a hv).elim,
    fun v _ a _ hv => (hlive v a hv).elim, fun v a hv => (hlive v a hv).elim,
    fun v a hv => (hlive v a hv).elim, fun _ x hx => ?_, fun v _ => ?_, fun hwritten => ?_⟩
  · rw [h.inUse] at hx
    exact absurd hx (Finset.notMem_empty x)
  · rw [h.irqStatus, h.unmasked]
    exact BitVec.getLsbD_zero
  · rw [h.written] at hwritten
    cases hwritten

variable {pos rounds : ℕ}

theorem findNextBit_cases (val : BitVec 32) (pos : ℕ) :
    (findNextBit val pos = maxMsiIrqsPerCtrl ∧
      ∀ i < maxMsiIrqsPerCtrl, pos ≤ i → val.getLsbD i = false) ∨
    (findNextBit val pos < maxMsiIrqsPerCtrl ∧ pos ≤ findNextBit val pos ∧
      val.getLsbD (findNextBit val pos) = true ∧
      ∀ i < findNextBit val pos, pos ≤ i → val.getLsbD i = false) := by
  unfold findNextBit
  cases hfind : (List.range maxMsiIrqsPerCtrl).find? fun i =>
      decide (pos ≤ i) && val.getLsbD i with
  | none =>
    rw [List.find?_range_eq_none] at hfind
    refine Or.inl ⟨rfl, fun i hi hpos => ?_⟩
    have hi := hfind i hi
    rw [decide_eq_true hpos, Bool.true_and, Bool.not_eq_true'] at hi
    exact hi
  | some j =>
    rw [List.find?_range_eq_some, List.mem_range, Bool.and_eq_true, decide_eq_true_eq] at hfind
    obtain ⟨⟨hpos, hset⟩, hlt, hbefore⟩ := hfind
    refine Or.inr ⟨hlt, hpos, hset, fun i hi hle => ?_⟩
    have hi := hbefore i hi
    rw [decide_eq_true hle, Bool.true_and, Bool.not_eq_true'] at hi
    exact hi

theorem handleFrom_spec (val : BitVec 32) (first : ℕ) (hrounds : maxMsiIrqsPerCtrl < pos + rounds) :
    (handleFrom val first rounds pos).Nodup ∧
      ∀ x, x ∈ handleFrom val first rounds pos ↔
        ∃ i < maxMsiIrqsPerCtrl, pos ≤ i ∧ val.getLsbD i = true ∧ x = first + i := by
  induction rounds generalizing pos with
  | zero =>
    refine ⟨List.nodup_nil, fun x => ⟨fun hx => absurd hx List.not_mem_nil, ?_⟩⟩
    rintro ⟨i, hi, hpos, -⟩
    omega
  | succ rounds ih =>
    rcases findNextBit_cases val pos with ⟨hend, hclear⟩ | ⟨hlt, hpos, hset, hclear⟩
    · have hnil : handleFrom val first (rounds + 1) pos = [] := if_pos hend
      rw [hnil]
      refine ⟨List.nodup_nil, fun x => ⟨fun hx => absurd hx List.not_mem_nil, ?_⟩⟩
      rintro ⟨i, hi, hle, hbit, -⟩
      rw [hclear i hi hle] at hbit
      cases hbit
    · have hcons : handleFrom val first (rounds + 1) pos = (first + findNextBit val pos) ::
          handleFrom val first rounds (findNextBit val pos + 1) := if_neg hlt.ne
      obtain ⟨hnodup, hmem⟩ := @ih (findNextBit val pos + 1) (by omega)
      rw [hcons]
      refine ⟨List.nodup_cons.mpr ⟨fun hin => ?_, hnodup⟩, fun x => ⟨fun hx => ?_, ?_⟩⟩
      · obtain ⟨i, -, hle, -, heq⟩ := (hmem _).mp hin
        omega
      · rcases List.mem_cons.mp hx with rfl | hrest
        · exact ⟨_, hlt, hpos, hset, rfl⟩
        · obtain ⟨i, hi, hle, hbit, heq⟩ := (hmem x).mp hrest
          exact ⟨i, hi, by omega, hbit, heq⟩
      · rintro ⟨i, hi, hle, hbit, heq⟩
        rw [List.mem_cons, hmem]
        by_cases hsame : i = findNextBit val pos
        · exact Or.inl (hsame ▸ heq)
        · refine Or.inr ⟨i, hi, ?_, hbit, heq⟩
          by_contra hbefore
          rw [hclear i (by omega) hle] at hbit
          cases hbit

theorem hipHandleMsiIrq_spec (status : ℕ → BitVec 32) :
    (hipHandleMsiIrq status).Nodup ∧ ∀ v, v ∈ hipHandleMsiIrq status ↔
      v < maxMsiIrqs ∧
        (status (v / maxMsiIrqsPerCtrl)).getLsbD (v % maxMsiIrqsPerCtrl) = true := by
  -- there is one register of vectors
  have hone : hipHandleMsiIrq status = if status 0 = 0 then []
      else handleFrom (status 0) 0 (maxMsiIrqsPerCtrl + 1) 0 := List.append_nil _
  rw [hone]
  have hquot : ∀ v < maxMsiIrqs, v / maxMsiIrqsPerCtrl = 0 ∧ v % maxMsiIrqsPerCtrl = v :=
    fun v hv => ⟨Nat.div_eq_of_lt hv, Nat.mod_eq_of_lt hv⟩
  by_cases hzero : status 0 = 0
  · rw [if_pos hzero]
    refine ⟨List.nodup_nil, fun v => ⟨fun hx => absurd hx List.not_mem_nil, ?_⟩⟩
    rintro ⟨hv, hbit⟩
    rw [(hquot v hv).1, hzero] at hbit
    exact absurd hbit (by simp)
  · rw [if_neg hzero]
    obtain ⟨hnodup, hmem⟩ := handleFrom_spec (status 0) 0
      (Nat.lt_of_lt_of_eq (Nat.lt_succ_self maxMsiIrqsPerCtrl) (Nat.zero_add _).symm)
    refine ⟨hnodup, fun v => (hmem v).trans ⟨?_, ?_⟩⟩
    · rintro ⟨i, hi, -, hbit, heq⟩
      rw [Nat.zero_add] at heq
      subst heq
      rw [(hquot v hi).1, (hquot v hi).2]
      exact ⟨hi, hbit⟩
    · rintro ⟨hv, hbit⟩
      rw [(hquot v hv).1, (hquot v hv).2] at hbit
      exact ⟨v, hv, Nat.zero_le v, hbit, (Nat.zero_add v).symm⟩

theorem Reachable.inv (h : system.Reachable s) : Inv False s :=
  h.invariant (fun _ hinit => Initial.inv hinit)
    fun _ _ _ _ hinv hstep => hinv.step (fun hfalse => hfalse.elim) hstep

theorem Reachable.inv_restrict (h : (system.restrict RoundFrees).Reachable s) : Inv True s :=
  h.invariant (fun _ hinit => Initial.inv hinit)
    fun _ _ _ _ hinv hstep => hinv.step (fun _ => hstep.1) hstep.2

theorem Inv.exclusive (h : Inv clean s) : Exclusive s where
  aligned v a hv := by
    obtain ⟨hdvd, hend⟩ := h.aligned v a hv
    exact ⟨hdvd, (Nat.add_le_add_left (le_two_pow_orderBase2 _) _).trans hend⟩
  disjoint v w a b hv hw hne :=
    (h.disjoint v w a b hv hw hne).mono a.vectors_subset b.vectors_subset
  consecutive := h.info

theorem Inv.mirrored (h : Inv clean s) : Mirrored s := by
  intro hwritten v hv
  have hlt : v < 32 := hv
  rw [h.mask hwritten, BitVec.getLsbD_not, h.status v hv, decide_eq_true hlt, Bool.true_and,
    Bool.not_eq_false']

theorem Inv.reusable (h : Inv True s) : Reusable s := by
  intro hgone
  have hempty : s.port.msiIrqInUse = ∅ := by
    refine Finset.eq_empty_of_forall_notMem fun x hx => ?_
    obtain ⟨v, a, hv, -⟩ := h.owned trivial x hx
    rw [hgone v] at hv
    cases hv
  have horder : orderBase2 maxMsiIrqs = 5 := Nat.clog_pow 2 5 Nat.one_lt_two
  rw [hempty, horder]
  exact ⟨rfl, by decide⟩

/-- The vectors have one owner each and the mask register follows the unmasks in every
history, the handler handles what is pending, and nothing leaks as long as no request is
given back vector by vector whose number is not a power of two. -/
theorem msiVectors_owned (s : State) :
    (system.Reachable s → Exclusive s ∧ Mirrored s) ∧
    ((system.restrict RoundFrees).Reachable s → Reusable s) ∧
    ∀ status, (hipHandleMsiIrq status).Nodup ∧ ∀ v, v ∈ hipHandleMsiIrq status ↔
      v < maxMsiIrqs ∧
        (status (v / maxMsiIrqsPerCtrl)).getLsbD (v % maxMsiIrqsPerCtrl) = true :=
  ⟨fun hreach => ⟨(Reachable.inv hreach).exclusive, (Reachable.inv hreach).mirrored⟩,
    fun hreach => (Reachable.inv_restrict hreach).reusable, hipHandleMsiIrq_spec⟩

def start : State where
  port := ⟨∅, fun _ => none, 0, 0, 0⟩
  live _ := none
  unmasked _ := false
  written := false

def State.request (nrIrqs : ℕ) : State := { start with
  port := (hipPcieIrqDomainAlloc start.port 0 nrIrqs).1
  live := Function.update start.live 0 (some ⟨0, nrIrqs, ∅⟩) }

def State.returned (nrIrqs : ℕ) : ℕ → State
  | 0 => State.request nrIrqs
  | i + 1 => { State.returned nrIrqs i with
      port := { hipPcieIrqDomainFree (State.returned nrIrqs i).port (0 + i) 1 with
        irqData := Function.update (State.returned nrIrqs i).port.irqData (0 + i) none }
      live := Function.update (State.returned nrIrqs i).live 0
        (Alloc.afterFree ⟨0, nrIrqs, Finset.range i⟩ i) }

theorem start_initial : Initial start :=
  ⟨rfl, fun _ => rfl, rfl, fun _ => rfl, fun _ => rfl, rfl⟩

theorem request_step (nrIrqs : ℕ)
    (hfind : findFreeRegion ∅ maxMsiIrqs (orderBase2 nrIrqs) = some 0) :
    Step start (.alloc 0 nrIrqs) (State.request nrIrqs) :=
  Step.granted (fun _ _ _ => ⟨rfl, rfl⟩) hfind

theorem returned_step {nrIrqs i : ℕ} (hi : i < nrIrqs)
    (hlive : (State.returned nrIrqs i).live 0 = some ⟨0, nrIrqs, Finset.range i⟩) :
    Step (State.returned nrIrqs i) (.freeOne 0 i) (State.returned nrIrqs (i + 1)) := by
  refine Step.freeOne hlive hi ?_
  change 0 + i ∉ Finset.range i
  rw [Nat.zero_add]
  exact Finset.notMem_range_self

theorem twoReturned_reachable :
    (system.restrict RoundFrees).Reachable (State.returned 2 2) := by
  have horder : orderBase2 2 = 1 := Nat.clog_pow 2 1 Nat.one_lt_two
  have hround : ∀ i, (State.returned 2 i).live 0 = some ⟨0, 2, Finset.range i⟩ →
      RoundFrees (State.returned 2 i) (.freeOne 0 i) := by
    intro i hi a ha
    rw [hi, Option.some.injEq] at ha
    subst ha
    change 2 ^ orderBase2 2 = 2
    rw [horder, pow_one]
  have hrequest : (system.restrict RoundFrees).Reachable (State.returned 2 0) :=
    .step (a := .alloc 0 2) (.init start_initial)
      ⟨trivial, request_step 2 (by rw [horder]; decide)⟩
  have hfirst : (system.restrict RoundFrees).Reachable (State.returned 2 1) :=
    .step hrequest ⟨hround 0 rfl, returned_step (by decide) rfl⟩
  exact .step hfirst ⟨hround 1 rfl, returned_step (by decide) rfl⟩

theorem msiVectors_owned_two :
    Exclusive (State.returned 2 2) ∧ Mirrored (State.returned 2 2) ∧
      Reusable (State.returned 2 2) := by
  have howned := (msiVectors_owned _).1 twoReturned_reachable.of_restrict
  exact ⟨howned.1, howned.2, (msiVectors_owned _).2.1 twoReturned_reachable⟩

/-- A request for three vectors reserves four, and its three releases leave the last. -/
theorem threeReturned_leaks : ∃ s, system.Reachable s ∧ ¬ Reusable s := by
  have horder : orderBase2 3 = 2 := by
    unfold orderBase2
    norm_num [Nat.clog]
  have hrequest : system.Reachable (State.returned 3 0) :=
    .step (.init start_initial) (request_step 3 (by rw [horder]; decide))
  have hfirst : system.Reachable (State.returned 3 1) :=
    .step hrequest (returned_step (by decide) rfl)
  have hsecond : system.Reachable (State.returned 3 2) :=
    .step hfirst (returned_step (by decide) rfl)
  have hlive : (State.returned 3 2).live 0 = some ⟨0, 3, Finset.range 2⟩ :=
    congrArg (fun freed => some (Alloc.mk 0 3 freed)) Finset.range_add_one.symm
  refine ⟨State.returned 3 3,
    .step hsecond (returned_step (by decide) hlive), fun hreuse => ?_⟩
  have hgone : ∀ v, (State.returned 3 3).live v = none := by
    intro v
    by_cases hv : v = 0
    · subst hv
      rfl
    · simp [State.returned, State.request, start, Function.update_of_ne hv]
  have hlost : (State.returned 3 3).port.msiIrqInUse ≠ ∅ := by
    change (((∅ ∪ block 0 (orderBase2 3)) \ block 0 (orderBase2 1)) \ block 1 (orderBase2 1)) \
      block 2 (orderBase2 1) ≠ ∅
    rw [horder, orderBase2_one]
    decide
  exact hlost (hreuse hgone).1

end HiMpu.PcieMsi
