import Mathlib.Tactic

/-!
# The table of the SPI flashes

What the probe takes over from the table: the sizes, the operations of the erase and the
driver.  The operation of the erase is searched by the size of the sector, and nothing
says that there is one of that size.
-/

namespace HiMpu.SfcSpiIds

def size64K : ℕ := 0x10000
def size256K : ℕ := 0x40000
def size16M : ℕ := 0x1000000
def size32M : ℕ := 0x2000000
def size64M : ℕ := 0x4000000
def size128M : ℕ := 0x8000000

def maxSpiOp : ℕ := 8
def maxSpiEraseOp : ℕ := 4

def cfiMfrSpansion : ℕ := 0x01
def cfiMfrMicron : ℕ := 0x20
def cfiMfrIssi : ℕ := 0x9D
def cfiMfrMacronix : ℕ := 0xC2
def cfiPsaAddrSpansion : ℕ := 4
def cfiPsa64KbSpansionVal : ℕ := 1
def cfiPsa256KbSpansionVal : ℕ := 0
def spansionSpecIdLen : ℕ := 2

structure SpiOperation where
  iftype : ℕ
  cmd : ℕ
  dummy : ℕ
  size : ℕ
  clock : ℕ
  deriving DecidableEq

inductive SpiDriver where
  | general
  | issiGen
  | s25fl256s
  | n25q256a
  | mx66u
  | s70fs01gs
  | s25fs512s
  | spansionGeneral
  deriving DecidableEq

/-- `erase_process` is `sfc_core_spansionfsxx_erase`, and not `NULL`. -/
def SpiDriver.eraseProcess : SpiDriver → Bool
  | .s70fs01gs | .s25fs512s | .spansionGeneral => true
  | _ => false

structure SpiInfo where
  name : String
  id : List ℕ
  chipsize : ℕ
  erasesize : ℕ
  erase : List SpiOperation
  driver : SpiDriver
  deriving DecidableEq

def eraseSector64K (clk : ℕ) : SpiOperation := ⟨0x04, 0xD8, 0, size64K, clk⟩
def eraseSector256K (clk : ℕ) : SpiOperation := ⟨0x08, 0xD8, 0, size256K, clk⟩
def eraseSectorS25256K (clk : ℕ) : SpiOperation := ⟨0x04, 0xD8, 0, size256K, clk⟩

def hisfcSpiInfoTable : List SpiInfo := [
  ⟨"EN25QH256", [0x1C, 0x70, 0x19], size32M, size64K,
    [eraseSector64K 104], .general⟩,
  ⟨"N25Q128", [0x20, 0xba, 0x18], size16M, size64K,
    [eraseSector64K 108], .general⟩,
  ⟨"N25Q256A", [0x20, 0xba, 0x19], size32M, size64K,
    [eraseSector64K 108], .n25q256a⟩,
  ⟨"MT25QU128AB", [0x20, 0xbb, 0x18], size16M, size64K,
    [eraseSector64K 133], .n25q256a⟩,
  ⟨"MT25QU512ABB", [0x20, 0xbb, 0x20], size64M, size64K,
    [eraseSector64K 166], .n25q256a⟩,
  ⟨"MT25Q_QLKT_L_512_ABB_0", [0x20, 0xba, 0x20], size64M, size64K,
    [eraseSector64K 166], .n25q256a⟩,
  ⟨"MT25QU01GBBB", [0x20, 0xbb, 0x21], size128M, size64K,
    [eraseSector64K 166], .n25q256a⟩,
  ⟨"mx66u51235f", [0xc2, 0x25, 0x3a], size64M, size64K,
    [eraseSector64K 108], .mx66u⟩,
  ⟨"mx66u1g45g", [0xc2, 0x25, 0x3b], size128M, size64K,
    [eraseSector64K 108], .mx66u⟩,
  ⟨"mx25u12835f", [0xc2, 0x25, 0x38], size16M, size64K,
    [eraseSector64K 108], .mx66u⟩,
  ⟨"mx25l51245g", [0xc2, 0x20, 0x1a], size64M, size64K,
    [eraseSector64K 108], .mx66u⟩,
  ⟨"mx66l1g45g", [0xc2, 0x20, 0x1b], size128M, size64K,
    [eraseSector64K 108], .mx66u⟩,
  ⟨"s70fs01gs", [0x01, 0x02, 0x21, 0x4d, 0x00, 0x81], size128M, size256K,
    [eraseSector256K 133], .s70fs01gs⟩,
  ⟨"IS25WP128F", [0x9D, 0x70, 0x18], size16M, size64K,
    [eraseSector64K 108], .issiGen⟩,
  ⟨"IS25WP256E", [0x9D, 0x70, 0x19], size32M, size64K,
    [eraseSector64K 108], .issiGen⟩,
  ⟨"IS25LP512M", [0x9D, 0x60, 0x1a], size64M, size64K,
    [eraseSector64K 108], .issiGen⟩,
  ⟨"W25Q128BV", [0xEF, 0x40, 0x18], size16M, size64K,
    [eraseSector64K 104], .general⟩,
  ⟨"W25Q256FV", [0xEF, 0x40, 0x19], size32M, size64K,
    [eraseSector64K 104], .general⟩,
  ⟨"W25Q256JW", [0xEF, 0x60, 0x19], size32M, size64K,
    [eraseSector64K 104], .general⟩,
  ⟨"EN25Q128", [0x1c, 0x30, 0x18], size16M, size64K,
    [eraseSector64K 80], .general⟩,
  ⟨"S25FL256S", [0x01, 0x02, 0x19, 0x4D, 0x01, 0x80], size32M, size64K,
    [eraseSector64K 133], .s25fl256s⟩,
  ⟨"S25FL128S", [0x01, 0x20, 0x18, 0x4D, 0x01, 0x80], size16M, size64K,
    [eraseSector64K 133], .general⟩,
  ⟨"S25FL512S", [0x01, 0x02, 0x20, 0x4d, 0x00, 0x80], size64M, size256K,
    [eraseSectorS25256K 133], .s25fl256s⟩,
  ⟨"S25FS512S", [0x01, 0x02, 0x20, 0x4d, 0x00, 0x81], size64M, size256K,
    [eraseSectorS25256K 133], .s25fs512s⟩,
  ⟨"S25FS128S", [0x01, 0x20, 0x18, 0x4d, 0x01, 0x81], size16M, size64K,
    [eraseSector64K 133], .spansionGeneral⟩,
  ⟨"S25FL128P-0", [0x01, 0x20, 0x18, 0x03, 0x00], size16M, size256K,
    [eraseSector256K 104], .general⟩,
  ⟨"S25FL128P-1", [0x01, 0x20, 0x18, 0x03, 0x01], size16M, size64K,
    [eraseSector64K 104], .general⟩,
  ⟨"S25FL129P0", [0x01, 0x20, 0x18, 0x4d, 0x00], size16M, size256K,
    [eraseSector64K 104], .general⟩,
  ⟨"S25FL129P1", [0x01, 0x20, 0x18, 0x4d, 0x01], size16M, size64K,
    [eraseSector64K 104], .general⟩,
  ⟨"MX25L128", [0xc2, 0x20, 0x18], size16M, size64K,
    [eraseSector64K 75], .general⟩,
  ⟨"MX25L25645G", [0xc2, 0x20, 0x19], size32M, size64K,
    [eraseSector64K 80], .general⟩,
  ⟨"MX25U25645G", [0xc2, 0x25, 0x39], size32M, size64K,
    [eraseSector64K 80], .general⟩,
  ⟨"MX25U12832F", [0xc2, 0x25, 0x38], size16M, size64K,
    [eraseSector64K 80], .general⟩,
  ⟨"M25P128", [0x20, 0x20, 0x18], size16M, size64K,
    [eraseSector64K 50], .general⟩,
  ⟨"mx25l12855e", [0xc2, 0x26, 0x18], size16M, size64K,
    [eraseSector64K 0], .general⟩,
  ⟨"GD25LE128E", [0xc8, 0x60, 0x18], size16M, size64K,
    [eraseSector64K 0], .general⟩,
  ⟨"GD25Q256DFFRY", [0xc8, 0x40, 0x19], size32M, size64K,
    [eraseSector64K 0], .general⟩,
  ⟨"GD55B512ME", [0xc8, 0x40, 0x1a], size64M, size64K,
    [eraseSector64K 0], .general⟩,
  ⟨"GD25LB256E", [0xc8, 0x67, 0x19], size32M, size64K,
    [eraseSector64K 0], .general⟩,
  ⟨"MX66U51235F", [0xc2, 0x25, 0x3a], size64M, size64K,
    [eraseSector64K 0], .general⟩,
  ⟨"XT25W512B", [0x0b, 0x65, 0x1a], size64M, size64K,
    [eraseSector64K 0], .general⟩,
  ⟨"XT25F256B", [0x0b, 0x40, 0x19], size32M, size64K,
    [eraseSector64K 0], .general⟩,
  ⟨"MICRON default", [cfiMfrMicron], size128M, size64K,
    [eraseSector64K 166], .n25q256a⟩,
  ⟨"MACRONIX default", [cfiMfrMacronix], size128M, size64K,
    [eraseSector64K 108], .mx66u⟩,
  ⟨"Spansion256 default", [cfiMfrSpansion, cfiPsa256KbSpansionVal], size128M, size256K,
    [eraseSectorS25256K 133], .s25fs512s⟩,
  ⟨"Spansion64 default", [cfiMfrSpansion, cfiPsa64KbSpansionVal], size128M, size64K,
    [eraseSector64K 133], .spansionGeneral⟩,
  ⟨"ISSI default", [cfiMfrIssi], size128M, size64K,
    [eraseSector64K 108], .issiGen⟩,
  ⟨"default default", [0xff], size128M, size64K,
    [eraseSector64K 108], .mx66u⟩
]

/-- The identification of a flash that only stands for its maker. -/
def sfcSpecIdCmp (idsTbl idsMedia : List ℕ) : Bool :=
  idsTbl = [0xff] ∨
    idsMedia[0]? = some cfiMfrSpansion ∧ idsTbl.length = spansionSpecIdLen ∧
      idsMedia[0]? = idsTbl[0]? ∧
      idsMedia[cfiPsaAddrSpansion]? = idsTbl[spansionSpecIdLen - 1]?

/-- The first one of those that match with the longest identification. -/
def sfcSpiSerachIds (table : List SpiInfo) (ids : List ℕ) : Option SpiInfo :=
  table.foldl (fun fit info =>
    if info.id <+: ids ∨ sfcSpecIdCmp info.id ids then
      match fit with
      | none => some info
      | some found => if found.id.length < info.id.length then some info else fit
    else fit) none

/-- `spiop` is what the operation held before.  When no operation has the size of the
sector only the size is written. -/
def sfcSpiGetErase (info : SpiInfo) (spiop : SpiOperation) : SpiOperation :=
  match (info.erase.take maxSpiEraseOp).find? (info.erasesize == ·.size) with
  | some op => op
  | none => { spiop with size := 0 }

def SpiInfo.HasErase (info : SpiInfo) : Prop :=
  ∃ op ∈ info.erase.take maxSpiEraseOp, op.size = info.erasesize

instance (info : SpiInfo) : Decidable info.HasErase :=
  inferInstanceAs (Decidable (∃ op ∈ info.erase.take maxSpiEraseOp, op.size = info.erasesize))

variable {info : SpiInfo} {spiop : SpiOperation}

theorem sfcSpiGetErase_size (hop : info.HasErase) :
    (sfcSpiGetErase info spiop).size = info.erasesize := by
  obtain ⟨op, hmem, hsize⟩ := hop
  unfold sfcSpiGetErase
  split
  next found hfound =>
    have hequal := List.find?_some hfound
    exact (beq_iff_eq.mp hequal).symm
  next hnone =>
    have hall := List.find?_eq_none.mp hnone op hmem
    rw [hsize] at hall
    simp at hall

theorem sfcSpiGetErase_none (hop : ¬info.HasErase) : (sfcSpiGetErase info spiop).size = 0 := by
  unfold sfcSpiGetErase
  split
  next found hfound =>
    have hequal := List.find?_some hfound
    exact absurd ⟨found, List.mem_of_find?_eq_some hfound, (beq_iff_eq.mp hequal).symm⟩ hop
  next => rfl

structure SpiInfo.WellFormed (info : SpiInfo) : Prop where
  erasesize : info.erasesize = size64K ∨ info.erasesize = size256K
  chipsize_low : size16M ≤ info.chipsize
  chipsize_high : info.chipsize ≤ size128M

instance (info : SpiInfo) : Decidable info.WellFormed :=
  decidable_of_iff
    ((info.erasesize = size64K ∨ info.erasesize = size256K) ∧
      size16M ≤ info.chipsize ∧ info.chipsize ≤ size128M)
    ⟨fun ⟨h₁, h₂, h₃⟩ => ⟨h₁, h₂, h₃⟩, fun h => ⟨h.erasesize, h.chipsize_low, h.chipsize_high⟩⟩

theorem SpiInfo.WellFormed.erasesize_pow (hwell : info.WellFormed) :
    ∃ k, info.erasesize = 2 ^ k := by
  rcases hwell.erasesize with h | h
  · exact ⟨16, h⟩
  · exact ⟨18, h⟩

theorem hisfcSpiInfoTable_wellFormed : ∀ info ∈ hisfcSpiInfoTable, info.WellFormed := by
  decide

end HiMpu.SfcSpiIds
