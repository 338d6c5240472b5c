import HiMpu.GmacRxRing

/-!
# The filter for the port's own solicitations

`gmac_eth_rx` hands up the frame behind the head room of the buffer, and
`gmac_eth_rx_pkt_check` drops it before if it is a neighbour solicitation with the port's own
address.  The filter gets a fixed offset that is no longer the size of the head room.
-/

namespace HiMpu.GmacRx

def slice (buf : Mem) (p n : ℕ) : List UInt8 :=
  (List.range n).map fun i => buf (p + i)

def deliveredFrame (netIpAlign : ℕ) (buf : Mem) : List UInt8 :=
  slice buf (packetHeadSize + netIpAlign) (pktLength buf)

def Tagged (frame : List UInt8) : Prop :=
  frame[12]? = some 0x81 ∧ frame[13]? = some 0x00

instance (frame : List UInt8) : Decidable (Tagged frame) :=
  inferInstanceAs (Decidable (_ ∧ _))

def protoAt (frame : List UInt8) : ℕ :=
  if Tagged frame then 16 else 12

structure OwnSolicitation (devAddr : ℕ → UInt8) (frame : List UInt8) : Prop where
  source : ∀ i < macAddrSize, frame[macAddrSize + i]? = some (devAddr i)
  ipv6 : frame[protoAt frame]? = some 0x86 ∧ frame[protoAt frame + 1]? = some 0xdd
  icmp : frame[protoAt frame + 2 + 6]? = some nexthdrIcmp
  solicitation : frame[protoAt frame + 2 + 40]? = some ndiscNeighbourSolicitation

/-- A frame that gets to the filter: the descriptor gives a length and no reason to drop. -/
structure ReachesFilter (cfg : Config) (buf : Mem) : Prop where
  nonempty : pktLength buf ≠ 0
  fits : pktLength buf ≤ packetDataSize
  port : ((buf 10 &&& 0xf0) >>> 4).toNat = cfg.id
  notDropped : buf 18 &&& 0x20 = 0
  noError : buf 18 &&& 0x01 = 0
  noHook : cfg.loopHook = false

theorem ReachesFilter.pktCheck {cfg : Config} {buf : Mem} (h : ReachesFilter cfg buf) :
    gmacEthRxPktCheck cfg buf = .error ↔ 0 < gmacRxNdiscSmacIsMyself cfg buf ethHeadOffset := by
  have hfits : ¬packetDataSize < pktLength buf := not_lt.mpr h.fits
  simp only [gmacEthRxPktCheck, if_neg h.nonempty, if_neg hfits, h.port, h.notDropped, h.noError,
    h.noHook, ne_eq, not_true, if_false, Bool.false_eq_true]
  by_cases hfilter : 0 < gmacRxNdiscSmacIsMyself cfg buf ethHeadOffset
  · simp [hfilter]
  · simp [hfilter]

theorem getElem?_slice {buf : Mem} {p n i : ℕ} (h : i < n) :
    (slice buf p n)[i]? = some (buf (p + i)) := by
  simp [slice, h]

theorem load_two (buf : Mem) (addr : ℕ) (hi lo : UInt8) :
    buf.load addr 2 = hi.toNat + 256 * lo.toNat ↔ buf addr = hi ∧ buf (addr + 1) = lo := by
  have hfirst := UInt8.toNat_lt (buf addr)
  have hhi := UInt8.toNat_lt hi
  simp only [Mem.load, ← UInt8.toNat_inj]
  omega

theorem tagged_slice {buf : Mem} {p n : ℕ} (h : 14 ≤ n) :
    Tagged (slice buf p n) ↔ buf.load (p + 12) 2 = ethP8021qV := by
  rw [Tagged, getElem?_slice (by omega), getElem?_slice (by omega), Option.some.injEq,
    Option.some.injEq]
  exact (load_two buf (p + 12) 0x81 0x00).symm

theorem ipv6_slice {buf : Mem} {p n k : ℕ} (h : k + 2 ≤ n) :
    ((slice buf p n)[k]? = some 0x86 ∧ (slice buf p n)[k + 1]? = some 0xdd) ↔
      buf.load (p + k) 2 = ethPIpv6V := by
  rw [getElem?_slice (by omega), getElem?_slice (by omega), Option.some.injEq,
    Option.some.injEq]
  exact (load_two buf (p + k) 0x86 0xdd).symm

theorem ndisc_pos (cfg : Config) (buf : Mem) (p : ℕ) :
    0 < gmacRxNdiscSmacIsMyself cfg buf p ↔
      (∀ i < macAddrSize, buf (p + macAddrSize + i) = cfg.devAddr i) ∧
        ∃ k, k = (if buf.load (p + 12) 2 = ethP8021qV then 16 else 12) ∧
          buf.load (p + k) 2 = ethPIpv6V ∧ buf (p + (k + 2 + 6)) = nexthdrIcmp ∧
          buf (p + (k + 2 + 40)) = ndiscNeighbourSolicitation := by
  have hsource : (∀ i < macAddrSize, buf (p + macAddrSize + i) = cfg.devAddr i) ↔
      ¬∃ i < macAddrSize, cfg.devAddr i ≠ buf (p + macAddrSize + i) := by
    push Not
    exact forall₂_congr fun i _ => eq_comm
  unfold gmacRxNdiscSmacIsMyself
  rw [hsource]
  by_cases hother : ∃ i < macAddrSize, cfg.devAddr i ≠ buf (p + macAddrSize + i)
  · simp [hother]
  · rw [if_neg hother, and_iff_right hother]
    by_cases htag : buf.load (p + 12) 2 = ethP8021qV
    · simp only [htag, if_true, exists_eq_left, Nat.add_assoc]
      split_ifs <;> simp_all
    · simp only [htag, if_false, exists_eq_left, Nat.add_assoc]
      split_ifs <;> simp_all

theorem ndisc_exact (cfg : Config) (buf : Mem) (p : ℕ) :
    0 < gmacRxNdiscSmacIsMyself cfg buf p ↔ OwnSolicitation cfg.devAddr (slice buf p 59) := by
  have hproto : protoAt (slice buf p 59) =
      if buf.load (p + 12) 2 = ethP8021qV then 16 else 12 := by
    unfold protoAt
    simp only [tagged_slice (by omega : 14 ≤ 59)]
  have hbound : (if buf.load (p + 12) 2 = ethP8021qV then 16 else 12) + 42 < 59 := by
    split <;> omega
  rw [ndisc_pos]
  generalize (if buf.load (p + 12) 2 = ethP8021qV then 16 else 12) = k at hproto hbound
  constructor
  · rintro ⟨hsource, k', rfl, hipv6, hicmp, hsol⟩
    refine ⟨fun i hi => ?_, ?_, ?_, ?_⟩
    · simp only [macAddrSize] at hi
      rw [getElem?_slice (by simp only [macAddrSize]; omega), ← Nat.add_assoc, hsource i hi]
    · rw [hproto]
      exact (ipv6_slice (by omega)).mpr hipv6
    · rw [hproto, getElem?_slice (by omega), hicmp]
    · rw [hproto, getElem?_slice (by omega), hsol]
  · rintro ⟨hsource, hipv6, hicmp, hsol⟩
    rw [hproto] at hipv6 hicmp hsol
    refine ⟨fun i hi => ?_, k, rfl, (ipv6_slice (by omega)).mp hipv6, ?_, ?_⟩
    · have hbyte := hsource i hi
      simp only [macAddrSize] at hi
      rw [getElem?_slice (by simp only [macAddrSize]; omega), ← Nat.add_assoc] at hbyte
      exact Option.some.inj hbyte
    · rw [getElem?_slice (by omega)] at hicmp
      exact Option.some.inj hicmp
    · rw [getElem?_slice (by omega)] at hsol
      exact Option.some.inj hsol

/-- The head room as the driver clears it and the hardware fills it: nothing is behind the
descriptor. -/
def CleanHead (buf : Mem) : Prop :=
  ∀ x, 24 ≤ x → x < packetHeadSize → buf x = 0

theorem CleanHead.not_ownSolicitation {buf : Mem} (h : CleanHead buf) (devAddr : ℕ → UInt8) :
    ¬OwnSolicitation devAddr (slice buf ethHeadOffset 59) := by
  rintro ⟨-, ⟨htype, -⟩, -, -⟩
  have hzero : buf (ethHeadOffset + 12) = 0 := h _ (by decide) (by decide)
  unfold protoAt at htype
  split at htype
  · rename_i htag
    have htpid := htag.1
    rw [getElem?_slice (by omega), hzero] at htpid
    cases htpid
  · rw [getElem?_slice (by omega), hzero] at htype
    cases htype

def soliciting : Config where
  id := 0
  devAddr := fun _ => 2
  loopHook := false
  gRxMode := false

def ownFrame (netIpAlign : ℕ) : Mem := fun x =>
  if x = 9 then 86
  else if 70 + netIpAlign ≤ x ∧ x < 76 + netIpAlign then 2
  else if x = 76 + netIpAlign then 0x86
  else if x = 77 + netIpAlign then 0xdd
  else if x = 84 + netIpAlign then 58
  else if x = 118 + netIpAlign then 135
  else 0

end HiMpu.GmacRx
