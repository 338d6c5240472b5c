import HiMpu.SfcAccess

/-!
# Reading the flash with two dies

The flash of 128 MB is made of two dies, and one command or burst has to stay on one of
them.  The reads through the registers are cut at the boundary.  The bursts start at a
multiple of 256 and go on in steps of a page, and are cut nowhere else.
-/

namespace HiMpu.SfcController

def Piece.Straddles (p : Piece) (bound : ℕ) : Prop := p.addr < bound ∧ bound < p.addr + p.len

/-- The first burst begins before the boundary and not at a multiple of the largest burst,
and the last one ends behind the boundary. -/
def BurstStraddles (addr len : ℕ) : Prop :=
  let first := (addr + Sfc.hisfc350DmaAlignSize - 1) / Sfc.hisfc350DmaAlignSize *
    Sfc.hisfc350DmaAlignSize
  first < Sfc.s70fs01gsBoundAddr ∧ first % Sfc.hisfc350DmaMaxSize ≠ 0 ∧
    Sfc.s70fs01gsBoundAddr <
      (addr + len) / Sfc.hisfc350DmaMinSize * Sfc.hisfc350DmaMinSize

instance (addr len : ℕ) : Decidable (BurstStraddles addr len) :=
  inferInstanceAs (Decidable (_ ∧ _ ∧ _))

section Reads

variable {p : Piece} {g : Geometry} {isRead : Bool} {chip : Sfc.Chip}
  {addr len off num bound chipsize : ℕ}

theorem sfcCoreRegReadNum_pieces (fuel : ℕ) (h : Sfc.Host) (addr : ℕ) (buf : Mem) (off num : ℕ) :
    Sfc.sfcCoreRegReadNum fuel h addr buf off num =
      (coreRegReadNum fuel addr num).foldl
        (fun s p => Sfc.sfcCoreRegReadBuf s.2 p.addr s.1 (off + p.addr - addr) p.len) (buf, h) := by
  induction fuel generalizing h addr buf off num with
  | zero => rfl
  | succ fuel ih =>
    unfold Sfc.sfcCoreRegReadNum coreRegReadNum
    split
    next =>
      simp only [List.foldl_cons, Nat.add_sub_cancel]
      rw [ih]
      have hshift (p : Piece) : off + Sfc.hisfc350RegBufSize + p.addr -
          (addr + Sfc.hisfc350RegBufSize) = off + p.addr - addr := by omega
      simp only [hshift]
    next =>
      split
      next => simp only [List.foldl_cons, List.foldl_nil, Nat.add_sub_cancel]
      next => rfl

theorem hisfcDmaBursts_pieces (burst : ℕ → Sfc.Burst) (fuel k : ℕ) (x : Sfc.Xfer)
    (addr off len : ℕ) :
    (Sfc.hisfcDmaBursts burst isRead fuel k x addr off len).1 =
      ((dmaBursts fuel addr len).zipIdx k).foldl
        (fun x q => Sfc.hisfcDmaBurst (burst q.2) isRead x q.1.addr (off + q.1.addr - addr)
          q.1.len) x := by
  induction fuel generalizing k x addr off len with
  | zero => rfl
  | succ fuel ih =>
    by_cases hlen : Sfc.hisfc350DmaMinSize ≤ len
    · rw [Sfc.hisfcDmaBursts_step _ _ _ _ _ _ hlen, dmaBursts, if_pos hlen, List.zipIdx_cons,
        List.foldl_cons, ih]
      have hshift (p : Piece) : off + Sfc.dmaNum len + p.addr - (addr + Sfc.dmaNum len) =
          off + p.addr - addr := by omega
      simp only [hshift, Nat.add_sub_cancel]
    · rw [Sfc.hisfcDmaBursts_end _ _ _ _ _ _ hlen, dmaBursts, if_neg hlen]
      rfl

theorem Piece.Within.not_straddles {lo hi : ℕ} (hp : p.Within lo hi)
    (hside : hi ≤ bound ∨ bound ≤ lo) : ¬p.Straddles bound := by
  rintro ⟨hlow, hhigh⟩
  have hstart := hp.low
  have hend := hp.high
  omega

theorem coreRegReadForAll_straddles (htwo : g.twoDies = true) (hchip : chipsize ≤ 0x8000000)
    (hcheck : Sfc.sfcCoreCheckAddrLen chipsize addr len = 0)
    (hmem : p ∈ (coreRegReadForAll chipsize g addr len).2) :
    ¬p.Straddles Sfc.s70fs01gsBoundAddr := by
  have hbound : Sfc.s70fs01gsBoundAddr = 0x4000000 := rfl
  obtain ⟨hpos, hend⟩ := Sfc.sfcCoreCheckAddrLen_accepts hcheck (by omega)
  rw [coreRegReadForAll, if_pos htwo, coreS70fs01gsRegRead,
    Nat.mod_eq_of_lt (show addr < 2 ^ 32 by omega),
    Nat.mod_eq_of_lt (show addr + len < 2 ^ 32 by omega)] at hmem
  split at hmem
  next hcross =>
    have hfirst (hmem : p ∈ (coreRegRead chipsize addr (Sfc.s70fs01gsBoundAddr - addr)).2) :
        ¬p.Straddles Sfc.s70fs01gsBoundAddr :=
      (coreRegRead_within (by omega) hmem).not_straddles (Or.inl (by omega))
    simp only at hmem
    split at hmem
    next => exact hfirst hmem
    next =>
      rcases List.mem_append.mp hmem with hmem | hmem
      · exact hfirst hmem
      · exact (coreRegRead_within (by omega) hmem).not_straddles (Or.inr le_rfl)
  next hwhole =>
    exact (coreRegRead_within (by omega) hmem).not_straddles (by omega)

theorem dmaBursts_straddle_iff (bound fuel addr len : ℕ) (hfuel : len ≤ fuel) :
    (∃ p ∈ dmaBursts fuel addr len, p.Straddles bound) ↔
      addr < bound ∧ bound < addr + (len - len % Sfc.hisfc350DmaMinSize) ∧
        (bound - addr) % Sfc.hisfc350DmaMaxSize ≠ 0 := by
  have hmin : Sfc.hisfc350DmaMinSize = 4 := rfl
  have hmax : Sfc.hisfc350DmaMaxSize = 4096 := rfl
  induction fuel generalizing addr len with
  | zero =>
    obtain rfl : len = 0 := Nat.le_zero.mp hfuel
    simp only [dmaBursts, List.not_mem_nil, false_and, exists_false, false_iff]
    omega
  | succ fuel ih =>
    rw [dmaBursts]
    split
    next hlen =>
      obtain ⟨hpos, hle, _, hmod, -⟩ := Sfc.dmaNum_bounds hlen
      have hnum : Sfc.dmaNum len = if 4096 ≤ len then 4096 else len - len % 4 := by
        simp only [Sfc.dmaNum, hmin, hmax]
        split <;> simp
      have hrest := ih (addr + Sfc.dmaNum len) (len - Sfc.dmaNum len) (by omega)
      simp only [List.mem_cons, exists_eq_or_imp, hrest]
      simp only [Piece.Straddles, hmin, hmax] at hlen hle hmod ⊢
      split at hnum <;> omega
    next hlen =>
      simp only [List.not_mem_nil, false_and, exists_false, false_iff]
      simp only [hmin] at hlen ⊢
      omega

theorem baseDmaRwXferData_straddles (htwo : g.twoDies = true) (hchip : chipsize ≤ 0x8000000)
    (hcheck : Sfc.sfcCoreCheckAddrLen chipsize addr len = 0) :
    (∃ p ∈ baseDmaRwXferData true chipsize g addr len, p.Straddles Sfc.s70fs01gsBoundAddr) ↔
      BurstStraddles addr len := by
  have hbound : Sfc.s70fs01gsBoundAddr = 0x4000000 := rfl
  have hmin : Sfc.hisfc350DmaMinSize = 4 := rfl
  have hmax : Sfc.hisfc350DmaMaxSize = 4096 := rfl
  have halign : Sfc.hisfc350DmaAlignSize = 256 := rfl
  obtain ⟨hpos, hend⟩ := Sfc.sfcCoreCheckAddrLen_accepts hcheck (by omega)
  have hle := Sfc.dmaHead_le addr len
  have hregisters {p : Piece} {start n : ℕ} (hstart : start + n ≤ chipsize) (hn : n ≠ 0)
      (hmem : p ∈ regRwForDma true chipsize g start n) :
      ¬p.Straddles Sfc.s70fs01gsBoundAddr :=
    coreRegReadForAll_straddles htwo hchip
      (Sfc.sfcCoreCheckAddrLen_of_le (Nat.pos_of_ne_zero hn) hstart (by omega)) hmem
  have hbursts := dmaBursts_straddle_iff Sfc.s70fs01gsBoundAddr
    (len - Sfc.dmaHead addr len) (addr + Sfc.dmaHead addr len) (len - Sfc.dmaHead addr len) le_rfl
  have hplace : BurstStraddles addr len ↔
      ∃ p ∈ dmaBursts (len - Sfc.dmaHead addr len) (addr + Sfc.dmaHead addr len)
        (len - Sfc.dmaHead addr len), p.Straddles Sfc.s70fs01gsBoundAddr := by
    rw [hbursts]
    simp only [BurstStraddles, Sfc.dmaHead, hbound, hmin, hmax, halign]
    split
    next => split <;> omega
    next => omega
  rw [hplace]
  constructor
  · rintro ⟨p, hmem, hp⟩
    simp only [baseDmaRwXferData, List.mem_append] at hmem
    rcases hmem with (hmem | hmem) | hmem
    · split at hmem
      next hhead =>
        have hstart : addr + Sfc.dmaHead addr len ≤ chipsize := by omega
        exact absurd hp (hregisters hstart hhead hmem)
      next => cases hmem
    · exact ⟨p, hmem, hp⟩
    · split at hmem
      next htail =>
        have htailLe := Nat.mod_le (len - Sfc.dmaHead addr len) Sfc.hisfc350DmaMinSize
        rw [Nat.add_sub_assoc (by omega)] at hmem
        exact absurd hp (hregisters (by omega) htail hmem)
      next => cases hmem
  · rintro ⟨p, hmem, hp⟩
    refine ⟨p, ?_, hp⟩
    simp only [baseDmaRwXferData, List.mem_append]
    exact Or.inl (Or.inr hmem)

/-- A read through the registers that returns zero has read the bytes of the place and
nothing else, a flash that is ready makes it return zero, and on neither path has a command
or a burst bytes of both dies. -/
structure ReadCorrect (ans : Sfc.ReadAnswers) (h : Sfc.Host) (chip : Sfc.Chip) (g : Geometry)
    (buf : Mem) (addr len : ℕ) : Prop where
  ready : ans.sfcCheckPermission = 0 → ans.Ready chip addr len →
    (Sfc.hisfcRegRead ans h chip addr buf len).1 = 0
  exact : (Sfc.hisfcRegRead ans h chip addr buf len).1 = 0 →
    (Sfc.hisfcRegRead ans h chip addr buf len).2.1 = len ∧
      (Sfc.hisfcRegRead ans h chip addr buf len).2.2.1 = buf.write 0 (h.flash.bytes addr len)
  registers : chip.twoDies = true →
    ∀ p ∈ (coreRegReadForAll chip.chipsize g addr len).2, ¬p.Straddles Sfc.s70fs01gsBoundAddr
  bursts : chip.twoDies = true →
    ∀ p ∈ baseDmaRwXferData true chip.chipsize g addr len, ¬p.Straddles Sfc.s70fs01gsBoundAddr

theorem hisfcRegRead_exact (ans : Sfc.ReadAnswers) (h : Sfc.Host) (buf : Mem)
    (hcheck : Sfc.sfcCoreCheckAddrLen chip.chipsize addr len = 0)
    (hret : (Sfc.hisfcRegRead ans h chip addr buf len).1 = 0) :
    (Sfc.hisfcRegRead ans h chip addr buf len).2.1 = len ∧
      (Sfc.hisfcRegRead ans h chip addr buf len).2.2.1 = buf.write 0 (h.flash.bytes addr len) := by
  unfold Sfc.hisfcRegRead at hret ⊢
  split at hret
  next hpermission => exact absurd hret hpermission
  next hpermission =>
    rw [if_neg hpermission]
    have hready : ans.Ready chip addr len := by
      by_contra hbusy
      exact Sfc.sfcCoreRegReadForAll_fails ans h chip buf 0 hcheck hbusy hret
    obtain ⟨-, hlen, hbuf, -⟩ :=
      Sfc.sfcCoreRegReadForAll_succeeds ans h chip buf 0 hcheck hready
    exact ⟨hlen, hbuf⟩

/-- A read of any flash that the range check accepts. -/
theorem readCorrect_iff (ans : Sfc.ReadAnswers) (h : Sfc.Host) (buf : Mem)
    (hdies : g.twoDies = chip.twoDies)
    (hcheck : Sfc.sfcCoreCheckAddrLen chip.chipsize addr len = 0) :
    ReadCorrect ans h chip g buf addr len ↔
      (chip.twoDies = true → ¬BurstStraddles addr len) := by
  constructor
  · intro hcorrect htwo hstraddles
    obtain ⟨p, hmem, hp⟩ :=
      (baseDmaRwXferData_straddles (hdies.trans htwo) chip.le_128M hcheck).mpr hstraddles
    exact hcorrect.bursts htwo p hmem hp
  · intro hone
    refine ⟨fun hpermission hready => ?_, hisfcRegRead_exact ans h buf hcheck, ?_, ?_⟩
    · rw [Sfc.hisfcRegRead, if_neg (not_not.mpr hpermission)]
      exact (Sfc.sfcCoreRegReadForAll_succeeds ans h chip buf 0 hcheck hready).1
    · intro htwo p hmem
      exact coreRegReadForAll_straddles (hdies.trans htwo) chip.le_128M hcheck hmem
    · intro htwo p hmem hp
      exact hone htwo ((baseDmaRwXferData_straddles (hdies.trans htwo) chip.le_128M hcheck).mp
        ⟨p, hmem, hp⟩)

end Reads

def chipS70fs01gs : Sfc.Chip := ⟨0x8000000, true, by decide, fun _ => rfl⟩

def geometryS70fs01gs : Geometry where
  twoDies := true
  hybrid := true
  erasesize := 0x40000
  eraseOpSize := 0x40000
  erasesize_pow := ⟨18, rfl⟩
  eraseOpSize_eq := Or.inl rfl
  hybrid_le := fun _ => by decide

theorem readCorrect_iff_pages :
    ReadCorrect ⟨0, 0, 0⟩ Sfc.host0 chipS70fs01gs geometryS70fs01gs (fun _ => 0) 0x3FFF000 0x2000 :=
  (readCorrect_iff _ _ _ rfl (by decide)).mpr
    fun _ => by decide

/-- The last 256 bytes of the first die and the first 256 of the second one come in one
burst. -/
theorem dma_read_straddles :
    Sfc.sfcCoreCheckAddrLen chipS70fs01gs.chipsize 0x3FFFF00 0x200 = 0 ∧
      (⟨0x3FFFF00, 0x3FFFF00, 0x200⟩ : Piece) ∈
        baseDmaRwXferData true chipS70fs01gs.chipsize geometryS70fs01gs 0x3FFFF00 0x200 ∧
      (⟨0x3FFFF00, 0x3FFFF00, 0x200⟩ : Piece).Straddles Sfc.s70fs01gsBoundAddr ∧
      ¬ReadCorrect ⟨0, 0, 0⟩ Sfc.host0 chipS70fs01gs geometryS70fs01gs (fun _ => 0)
        0x3FFFF00 0x200 := by
  have hcheck : Sfc.sfcCoreCheckAddrLen chipS70fs01gs.chipsize 0x3FFFF00 0x200 = 0 := by decide
  have hstraddles : (⟨0x3FFFF00, 0x3FFFF00, 0x200⟩ : Piece).Straddles Sfc.s70fs01gsBoundAddr := by
    constructor <;> decide
  have hmem : (⟨0x3FFFF00, 0x3FFFF00, 0x200⟩ : Piece) ∈
      baseDmaRwXferData true chipS70fs01gs.chipsize geometryS70fs01gs 0x3FFFF00 0x200 := by
    simp only [baseDmaRwXferData, List.mem_append]
    exact Or.inl (Or.inr List.mem_cons_self)
  refine ⟨hcheck, hmem, hstraddles, fun h => ?_⟩
  exact h.bursts rfl _ hmem hstraddles

end HiMpu.SfcController
