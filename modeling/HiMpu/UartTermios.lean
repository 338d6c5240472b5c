import HiMpu.ModuleReset
import HiMpu.UartConnect
import HiMpu.UartTransmit

/-!
# The line settings of the UART

`uart_set_termios` of `drivers/uart/uart_ker.c` for any clock, rate and flags, with the functions of
`drivers/uart/uart_core.c` that disconnect, reset and connect the port.  The rate is what
`uart_get_baud_rate` returns.
-/

namespace HiMpu.UartTermios

open UartReceive (Termios)
open UartTransmit (Regs Cflag Csize uartGetTermiosLcrh setBaudRate uartRestart dwUartDlab
  setBaudRate_spec)
open UartConnect (LpSubsys lpSubsysRegSetBits)
open ModuleReset (lpSubsysSrst)

def einval : ℤ := 22
def eio : ℤ := 5
def maxUartNum : ℕ := 8
def lpscSrstReq1Offset : ℕ := 0x8

def hisiUartGetSrstReqCtrl (uartNo : ℕ) : Option (ℕ × BitVec 32) :=
  if uartNo < 2 then some (lpscSrstReq1Offset, 1#32 <<< (uartNo + 12))
  else if uartNo < 8 then some (lpscSrstReq1Offset, 1#32 <<< (uartNo - 2 + 22))
  else none

def hisiUartCoreConnect (lp : LpSubsys) (uartNo : ℕ) : LpSubsys × ℤ :=
  if uartNo ≥ maxUartNum then (lp, -einval)
  else ((lpSubsysRegSetBits lp .enable (1#32 <<< uartNo) true).1, 0)

def hisiUartCoreDisconnect (lp : LpSubsys) (uartNo : ℕ) : LpSubsys × ℤ :=
  if uartNo ≥ maxUartNum then (lp, -einval)
  else ((lpSubsysRegSetBits lp .enable (1#32 <<< uartNo) false).1, 0)

def hisiUartCoreResetPort (coreInit : Bool) (lp : LpSubsys) (uartNo : ℕ) : ℤ :=
  if uartNo ≥ maxUartNum ∧ coreInit = false then -einval
  else
    match hisiUartGetSrstReqCtrl uartNo with
    | none => -einval
    | some (srstRegOff, _) => if lpSubsysSrst lp.ready srstRegOff ≠ 0 then -eio else 0

structure Port where
  portNo : ℕ
  uartclk : BitVec 32
  im : BitVec 32
  readStatusMask : BitVec 32
  ignoreStatusMask : BitVec 32
  regs : Regs

def divRoundClosest (x divisor : BitVec 32) : BitVec 32 := (x + divisor / 2) / divisor

def afterReset (coreInit : Bool) (reset : Regs) (port : Port) (lp : LpSubsys) : Regs :=
  let lp := (hisiUartCoreDisconnect lp port.portNo).1
  if hisiUartCoreResetPort coreInit lp port.portNo = 0 then reset else port.regs

def uartSetTermios (coreInit : Bool) (reset : Regs) (baud : BitVec 32) (c : Cflag) (t : Termios)
    (port : Port) (lp : LpSubsys) : Port × LpSubsys :=
  let quot := divRoundClosest port.uartclk (16 * baud)
  let lp' := (hisiUartCoreDisconnect lp port.portNo).1
  let regs := setBaudRate quot c (afterReset coreInit reset port lp) port.regs
  ({ port with
      readStatusMask := t.readMask
      ignoreStatusMask := t.ignoreMask
      regs := uartRestart port.im regs },
    (hisiUartCoreConnect lp' port.portNo).1)

def roundClosest (x d : ℕ) : ℕ := (x + d / 2) / d

def divisorLatch (r : Regs) : ℕ := r.dlh.toNat * 256 + r.dll.toNat

def rate (uartclk : BitVec 32) (divisor : ℕ) : ℚ := uartclk.toNat / (16 * divisor)

def chars : Csize → ℕ
  | .cs5 => 5
  | .cs6 => 6
  | .cs7 => 7
  | .cs8 => 8

structure Encodes (lcr : BitVec 32) (c : Cflag) : Prop where
  chars : (lcr &&& 3).toNat + 5 = chars c.csize
  stop : lcr.getLsbD 2 = c.cstopb
  parity : lcr.getLsbD 3 = c.parenb
  even : lcr.getLsbD 4 = (c.parenb && !c.parodd)
  stick : lcr.getLsbD 5 = (c.parenb && c.cmspar)
  dlab : lcr.getLsbD 7 = false

def Connected (lp : LpSubsys) (uartNo : ℕ) : Prop :=
  uartNo < maxUartNum ∧ (lp.reg .enable).getLsbD uartNo = true

/-- The divisor is the closest of those that the latch can hold in the clock cycles of a bit. -/
structure Programmed (coreInit : Bool) (reset : Regs) (baud : BitVec 32) (c : Cflag) (t : Termios)
    (port : Port) (lp : LpSubsys) : Prop where
  latch : divisorLatch (uartSetTermios coreInit reset baud c t port lp).1.regs =
    roundClosest port.uartclk.toNat (16 * baud.toNat)
  closest : ∀ d : ℕ, 0 < d → d ≤ 0xffff →
    |(16 * divisorLatch (uartSetTermios coreInit reset baud c t port lp).1.regs : ℚ) -
        port.uartclk.toNat / baud.toNat| ≤ |(16 * d : ℚ) - port.uartclk.toNat / baud.toNat|
  lcr : Encodes (uartSetTermios coreInit reset baud c t port lp).1.regs.lcr c
  kept : (setBaudRate (divRoundClosest port.uartclk (16 * baud)) c
    (afterReset coreInit reset port lp) port.regs).ier = (afterReset coreInit reset port lp).ier
  ier : (uartSetTermios coreInit reset baud c t port lp).1.regs.ier = port.im
  connected : Connected (uartSetTermios coreInit reset baud c t port lp).2 port.portNo

structure SettingsAllowed (baud : BitVec 32) (port : Port) (lp : LpSubsys) : Prop where
  /-- The sum of `DIV_ROUND_CLOSEST` does not wrap. -/
  sum : port.uartclk.toNat + 8 * baud.toNat < 2 ^ 32
  fits : roundClosest port.uartclk.toNat (16 * baud.toNat) ≤ 0xffff
  portNo : port.portNo < maxUartNum
  ready : lp.ready = true ∨ Connected lp port.portNo

def ClosestRate (uartclk baud : BitVec 32) (divisor : ℕ) : Prop :=
  ∀ d : ℕ, 0 < d → d ≤ 0xffff →
    |rate uartclk divisor - baud.toNat| ≤ |rate uartclk d - baud.toNat|

/-- The quotient is not between the harmonic and the arithmetic mean of two divisors. -/
def BelowMidpoint (uartclk baud : BitVec 32) : Prop :=
  let quot := roundClosest uartclk.toNat (16 * baud.toNat)
  quot = 0xffff ∨ uartclk.toNat * (2 * quot + 1) ≤ 2 * (16 * baud.toNat) * (quot * (quot + 1))

section Rounding

variable {x d : ℕ}

theorem roundClosest_bounds (hd : 0 < d) :
    2 * (d * roundClosest x d) ≤ 2 * x + d ∧ 2 * x ≤ 2 * (d * roundClosest x d) + d := by
  have hlow := Nat.mul_div_le (x + d / 2) d
  have hhigh := Nat.lt_mul_div_succ (x + d / 2) hd
  rw [Nat.mul_add, Nat.mul_one] at hhigh
  unfold roundClosest
  omega

theorem abs_roundClosest_le (hd : 0 < d) (k : ℕ) :
    |(d * roundClosest x d : ℚ) - x| ≤ |(d * k : ℚ) - x| := by
  obtain ⟨hlow, hhigh⟩ := roundClosest_bounds (x := x) hd
  generalize roundClosest x d = q at hlow hhigh ⊢
  have hlow' : (2 * (d * q) : ℚ) ≤ 2 * x + d := by exact_mod_cast hlow
  have hhigh' : (2 * x : ℚ) ≤ 2 * (d * q) + d := by exact_mod_cast hhigh
  have hhalf : |(d * q : ℚ) - x| ≤ d / 2 := by
    rw [abs_le]
    constructor
    · linarith
    · linarith
  obtain hlt | rfl | hgt := lt_trichotomy k q
  · have hstep : d * k + d ≤ d * q := Nat.mul_le_mul_left d hlt
    have hstep' : (d * k + d : ℚ) ≤ d * q := by exact_mod_cast hstep
    refine hhalf.trans (le_abs.mpr (Or.inr ?_))
    linarith
  · exact le_refl _
  · have hstep : d * q + d ≤ d * k := Nat.mul_le_mul_left d hgt
    have hstep' : (d * q + d : ℚ) ≤ d * k := by exact_mod_cast hstep
    refine hhalf.trans (le_abs.mpr (Or.inl ?_))
    linarith

theorem abs_quotient_le_iff {m : ℕ} (hd : 0 < d) (hq : 0 < roundClosest x d)
    (hm : roundClosest x d ≤ m) :
    (∀ k, 0 < k → k ≤ m → |(x / roundClosest x d : ℚ) - d| ≤ |(x / k : ℚ) - d|) ↔
      roundClosest x d = m ∨
        x * (2 * roundClosest x d + 1) ≤ 2 * d * (roundClosest x d * (roundClosest x d + 1)) := by
  obtain ⟨hlow, hhigh⟩ := roundClosest_bounds (x := x) hd
  generalize roundClosest x d = q at hq hm hlow hhigh ⊢
  have hlow' : (2 * (d * q) : ℚ) ≤ 2 * x + d := by exact_mod_cast hlow
  have hhigh' : (2 * x : ℚ) ≤ 2 * (d * q) + d := by exact_mod_cast hhigh
  have hd' : (0 : ℚ) < d := by exact_mod_cast hd
  have hq' : (0 : ℚ) < q := by exact_mod_cast hq
  have hx' : (0 : ℚ) ≤ x := by positivity
  -- the next quotient is below `d`
  have hnext : (x / (q + 1) : ℚ) < d := by
    rw [div_lt_iff₀ (by positivity)]
    nlinarith
  have hsum : (x / q : ℚ) + x / (q + 1) ≤ 2 * d ↔
      x * (2 * q + 1) ≤ 2 * d * (q * (q + 1)) := by
    have heq : (x / q : ℚ) + x / (q + 1) = x * (2 * q + 1) / (q * (q + 1)) := by
      field_simp
      ring
    rw [heq, div_le_iff₀ (by positivity)]
    exact_mod_cast Iff.rfl
  rw [← hsum]
  constructor
  · intro hall
    by_cases hmax : q = m
    · exact Or.inl hmax
    · have hk := hall (q + 1) (Nat.succ_pos q) (by omega)
      push_cast at hk
      rw [abs_of_neg (by linarith : (x / (q + 1) : ℚ) - d < 0)] at hk
      have hself := le_abs_self ((x / q : ℚ) - d)
      refine Or.inr ?_
      linarith
  · intro hcond k hk hkm
    have hk' : (0 : ℚ) < k := by exact_mod_cast hk
    have hanti : ∀ {a b : ℕ}, 0 < a → a ≤ b → (x / b : ℚ) ≤ x / a := by
      intro a b ha hab
      have ha' : (0 : ℚ) < a := by exact_mod_cast ha
      have hab' : (a : ℚ) ≤ b := by exact_mod_cast hab
      exact div_le_div_of_nonneg_left hx' ha' hab'
    obtain hlt | rfl | hgt := lt_trichotomy k q
    · obtain hge | hneg := le_or_gt (d : ℚ) (x / q)
      · rw [abs_of_nonneg (by linarith), abs_of_nonneg (by linarith [hanti hk hlt.le])]
        linarith [hanti hk hlt.le]
      · -- the rounding was upwards
        have hprev : (2 * d : ℚ) ≤ x / q + x / (q - 1 : ℕ) := by
          obtain ⟨p, rfl⟩ : ∃ p, q = p + 1 := ⟨q - 1, by omega⟩
          have hp : (0 : ℚ) < p := by
            have : 0 < p := by omega
            exact_mod_cast this
          push_cast at hlow' ⊢
          rw [div_add_div _ _ (by positivity) (by positivity),
            le_div_iff₀ (by positivity)]
          nlinarith
        have hle := hanti hk (Nat.le_sub_one_of_lt hlt)
        rw [abs_of_neg (by linarith)]
        refine le_abs.mpr (Or.inl ?_)
        linarith
    · exact le_refl _
    · obtain hge | hpos := le_or_gt (x / q : ℚ) d
      · have hle := hanti hq hgt.le
        rw [abs_of_nonpos (by linarith), abs_of_nonpos (by linarith)]
        linarith
      · obtain rfl | hle := hcond
        · exact absurd hkm (by omega)
        · have hstep := hanti (Nat.succ_pos q) hgt
          push_cast at hstep
          rw [abs_of_pos (by linarith)]
          refine le_abs.mpr (Or.inr ?_)
          linarith

theorem abs_bits_le {b : ℕ} (hb : 0 < b) (k : ℕ) :
    |(16 * roundClosest x (16 * b) : ℚ) - x / b| ≤ |(16 * k : ℚ) - x / b| := by
  have hb' : (0 : ℚ) < b := by exact_mod_cast hb
  have hscale : ∀ k : ℕ, |(16 * k : ℚ) - x / b| = |((16 * b : ℕ) * k : ℚ) - x| / b := by
    intro k
    have heq : (16 * k : ℚ) - x / b = ((16 * b : ℕ) * k - x) / b := by
      push_cast
      field_simp
    rw [heq, abs_div, abs_of_pos hb']
  rw [hscale, hscale]
  exact div_le_div_of_nonneg_right (abs_roundClosest_le (by omega) k) hb'.le

end Rounding

section Words

variable {uartclk baud : BitVec 32}

theorem baud_mul_toNat (hle : baud.toNat ≤ uartclk.toNat / 16) :
    (16 * baud).toNat = 16 * baud.toNat := by
  have hclk := uartclk.isLt
  rw [BitVec.toNat_mul]
  exact Nat.mod_eq_of_lt (by change 16 * baud.toNat < 2 ^ 32; omega)

theorem divRoundClosest_toNat (hle : baud.toNat ≤ uartclk.toNat / 16) :
    (divRoundClosest uartclk (16 * baud)).toNat =
      (uartclk.toNat + 8 * baud.toNat) % 2 ^ 32 / (16 * baud.toNat) := by
  have hhalf : (16 * baud / 2).toNat = 8 * baud.toNat := by
    rw [BitVec.toNat_udiv, baud_mul_toNat hle]
    change 16 * baud.toNat / 2 = 8 * baud.toNat
    omega
  unfold divRoundClosest
  rw [BitVec.toNat_udiv, BitVec.toNat_add, hhalf, baud_mul_toNat hle]

theorem roundClosest_baud :
    roundClosest uartclk.toNat (16 * baud.toNat) =
      (uartclk.toNat + 8 * baud.toNat) / (16 * baud.toNat) := by
  have hhalf : 16 * baud.toNat / 2 = 8 * baud.toNat := by omega
  unfold roundClosest
  rw [hhalf]

theorem latch_halves (quot : BitVec 32) :
    ((quot &&& 0xff00) >>> 8).toNat * 256 + (quot &&& 0xff).toNat = quot.toNat % 2 ^ 16 := by
  have hlow : (quot &&& 0xff).toNat = quot.toNat % 2 ^ 8 := by
    rw [BitVec.toNat_and]
    exact Nat.and_two_pow_sub_one_eq_mod _ 8
  have hhigh : ((quot &&& 0xff00) >>> 8).toNat = quot.toNat / 2 ^ 8 % 2 ^ 8 := by
    have hmask : (0xff00 : BitVec 32) >>> 8 = 0xff := by decide
    rw [BitVec.ushiftRight_and_distrib, hmask, BitVec.toNat_and, BitVec.toNat_ushiftRight,
      Nat.shiftRight_eq_div_pow]
    exact Nat.and_two_pow_sub_one_eq_mod _ 8
  rw [hlow, hhigh]
  omega

theorem latch_eq_iff (hpos : 1 ≤ baud.toNat) (hle : baud.toNat ≤ uartclk.toNat / 16) :
    (divRoundClosest uartclk (16 * baud)).toNat % 2 ^ 16 =
        roundClosest uartclk.toNat (16 * baud.toNat) ↔
      uartclk.toNat + 8 * baud.toNat < 2 ^ 32 ∧
        roundClosest uartclk.toNat (16 * baud.toNat) ≤ 0xffff := by
  have hclk := uartclk.isLt
  rw [divRoundClosest_toNat hle, roundClosest_baud]
  constructor
  · intro heq
    have hfits : (uartclk.toNat + 8 * baud.toNat) / (16 * baud.toNat) ≤ 0xffff := by omega
    refine ⟨?_, hfits⟩
    by_contra hwrap
    -- a quotient that lost 2 ^ 32 is smaller, and the latch holds it
    have hmod : (uartclk.toNat + 8 * baud.toNat) % 2 ^ 32 =
        uartclk.toNat + 8 * baud.toNat - 2 ^ 32 := by omega
    have hsmaller : (uartclk.toNat + 8 * baud.toNat - 2 ^ 32) / (16 * baud.toNat) + 1 ≤
        (uartclk.toNat + 8 * baud.toNat) / (16 * baud.toNat) := by
      rw [← Nat.add_div_right _ (by omega)]
      exact Nat.div_le_div_right (by omega)
    rw [hmod] at heq
    generalize (uartclk.toNat + 8 * baud.toNat - 2 ^ 32) / (16 * baud.toNat) = small
      at heq hsmaller
    omega
  · rintro ⟨hsum, hfits⟩
    rw [Nat.mod_eq_of_lt hsum, Nat.mod_eq_of_lt (by omega)]

theorem closestRate_iff (hpos : 1 ≤ baud.toNat) (hle : baud.toNat ≤ uartclk.toNat / 16)
    (hfits : roundClosest uartclk.toNat (16 * baud.toNat) ≤ 0xffff) :
    ClosestRate uartclk baud (roundClosest uartclk.toNat (16 * baud.toNat)) ↔
      BelowMidpoint uartclk baud := by
  have hone : 0 < roundClosest uartclk.toNat (16 * baud.toNat) := by
    rw [roundClosest_baud]
    exact Nat.div_pos (by omega) (by omega)
  have hscale : ∀ k : ℕ, |rate uartclk k - baud.toNat| =
      |(uartclk.toNat / k : ℚ) - (16 * baud.toNat : ℕ)| / 16 := by
    intro k
    have heq : rate uartclk k - baud.toNat =
        ((uartclk.toNat / k : ℚ) - (16 * baud.toNat : ℕ)) / 16 := by
      unfold rate
      push_cast
      rw [mul_comm, ← div_div]
      ring
    rw [heq, abs_div, abs_of_pos (by norm_num : (0 : ℚ) < 16)]
  unfold ClosestRate BelowMidpoint
  rw [← abs_quotient_le_iff (by omega) hone hfits]
  simp only [hscale, div_le_div_iff_of_pos_right (by norm_num : (0 : ℚ) < 16)]

end Words

section Registers

theorem setBaudRate_latch (quot : BitVec 32) (c : Cflag) (reset r : Regs) :
    (setBaudRate quot c reset r).dlh = (quot &&& 0xff00) >>> 8 ∧
      (setBaudRate quot c reset r).dll = quot &&& 0xff ∧
      (setBaudRate quot c reset r).ier = reset.ier := by
  unfold setBaudRate Regs.writel
  simp [UartTransmit.dwUartLcr, UartTransmit.dwUartDlh, UartTransmit.dwUartDll]

theorem uartRestart_keep {r : Regs} (hdlab : r.lcr &&& dwUartDlab = 0) (im : BitVec 32) :
    (uartRestart im r).dlh = r.dlh ∧ (uartRestart im r).dll = r.dll ∧
      (uartRestart im r).lcr = (r.lcr ||| dwUartDlab) &&& ~~~dwUartDlab ∧
      (uartRestart im r).ier = im := by
  unfold uartRestart UartTransmit.uartFifoReset
  rw [UartTransmit.writel_ier hdlab]
  simp [Regs.writel, UartTransmit.dwUartLcr, UartTransmit.dwUartFcr, UartTransmit.dwUartIer]

theorem lcr_restarted (lcr : BitVec 32) (hdlab : lcr &&& dwUartDlab = 0) :
    (lcr ||| dwUartDlab) &&& ~~~dwUartDlab = lcr := by
  ext i hi
  have hbit : (lcr[i] && dwUartDlab[i]) = false := by
    rw [← BitVec.getElem_and, hdlab]
    exact BitVec.getElem_zero hi
  rw [BitVec.getElem_and, BitVec.getElem_or, BitVec.getElem_not]
  cases hset : dwUartDlab[i] with
  | false => simp
  | true =>
    rw [hset, Bool.and_true] at hbit
    rw [hbit]
    rfl

theorem uartSetTermios_regs (coreInit : Bool) (reset : Regs) (baud : BitVec 32) (c : Cflag)
    (t : Termios) (port : Port) (lp : LpSubsys) :
    divisorLatch (uartSetTermios coreInit reset baud c t port lp).1.regs =
        (divRoundClosest port.uartclk (16 * baud)).toNat % 2 ^ 16 ∧
      (uartSetTermios coreInit reset baud c t port lp).1.regs.lcr = uartGetTermiosLcrh c ∧
      (uartSetTermios coreInit reset baud c t port lp).1.regs.ier = port.im := by
  have hlcr := (setBaudRate_spec (divRoundClosest port.uartclk (16 * baud)) c
    (afterReset coreInit reset port lp) port.regs).1
  obtain ⟨hdlh, hdll, -⟩ := setBaudRate_latch (divRoundClosest port.uartclk (16 * baud)) c
    (afterReset coreInit reset port lp) port.regs
  have hdlab : (setBaudRate (divRoundClosest port.uartclk (16 * baud)) c
      (afterReset coreInit reset port lp) port.regs).lcr &&& dwUartDlab = 0 := by
    rw [hlcr]
    exact UartTransmit.lcrh_dlab c
  obtain ⟨hdlh', hdll', hlcr', hier⟩ := uartRestart_keep hdlab port.im
  refine ⟨?_, ?_, hier⟩
  · unfold divisorLatch
    change (uartRestart _ _).dlh.toNat * 256 + (uartRestart _ _).dll.toNat = _
    rw [hdlh', hdll', hdlh, hdll]
    exact latch_halves _
  · refine hlcr'.trans ?_
    rw [lcr_restarted _ hdlab]
    exact hlcr

theorem uartGetTermiosLcrh_encodes (c : Cflag) : Encodes (uartGetTermiosLcrh c) c := by
  cases c with
  | mk csize cstopb parenb cmspar parodd =>
    cases csize <;> cases cstopb <;> cases parenb <;> cases cmspar <;> cases parodd <;>
      constructor <;> rfl

theorem connected_iff (lp : LpSubsys) (uartNo : ℕ) :
    Connected (hisiUartCoreConnect (hisiUartCoreDisconnect lp uartNo).1 uartNo).1 uartNo ↔
      uartNo < maxUartNum ∧ (lp.ready = true ∨ Connected lp uartNo) := by
  unfold hisiUartCoreConnect hisiUartCoreDisconnect
  by_cases hno : uartNo ≥ maxUartNum
  · simp only [if_pos hno]
    constructor
    · intro hconnected
      exact absurd hconnected.1 (Nat.not_lt.mpr hno)
    · intro h
      exact absurd h.1 (Nat.not_lt.mpr hno)
  · have hlt : uartNo < maxUartNum := Nat.lt_of_not_le hno
    have hbit : uartNo < 32 := by
      unfold maxUartNum at hlt
      omega
    simp only [if_neg hno]
    unfold lpSubsysRegSetBits
    by_cases hready : lp.ready = true
    · simp [hready, Connected, hlt, hbit]
    · simp [hready, Connected, hlt]

end Registers

section Settings

variable {coreInit : Bool} {reset : Regs} {baud : BitVec 32} {c : Cflag} {t : Termios}
  {port : Port} {lp : LpSubsys}

theorem Programmed.allowed
    (hpos : 1 ≤ baud.toNat)
    (hle : baud.toNat ≤ port.uartclk.toNat / 16)
    (h : Programmed coreInit reset baud c t port lp) :
    SettingsAllowed baud port lp := by
  have hlatch := h.latch
  rw [(uartSetTermios_regs ..).1, latch_eq_iff hpos hle] at hlatch
  obtain ⟨hno, hready⟩ := (connected_iff lp port.portNo).mp h.connected
  exact ⟨hlatch.1, hlatch.2, hno, hready⟩

theorem SettingsAllowed.programmed
    (hpos : 1 ≤ baud.toNat)
    (hle : baud.toNat ≤ port.uartclk.toNat / 16)
    (h : SettingsAllowed baud port lp) :
    Programmed coreInit reset baud c t port lp := by
  obtain ⟨hlatch, hlcr, hier⟩ := uartSetTermios_regs coreInit reset baud c t port lp
  rw [(latch_eq_iff hpos hle).mpr ⟨h.sum, h.fits⟩] at hlatch
  constructor
  · exact hlatch
  · intro d _ _
    rw [hlatch]
    exact abs_bits_le hpos d
  · rw [hlcr]
    exact uartGetTermiosLcrh_encodes c
  · exact (setBaudRate_latch _ _ _ _).2.2
  · exact hier
  · exact (connected_iff lp port.portNo).mpr ⟨h.portNo, h.ready⟩

end Settings

theorem settings_exact_iff
    (coreInit : Bool) (reset : Regs) (baud : BitVec 32) (c : Cflag) (t : Termios)
    (port : Port) (lp : LpSubsys)
    (hpos : 1 ≤ baud.toNat)
    (hle : baud.toNat ≤ port.uartclk.toNat / 16) :
    (Programmed coreInit reset baud c t port lp ↔ SettingsAllowed baud port lp) ∧
      (SettingsAllowed baud port lp →
        (ClosestRate port.uartclk baud
            (divisorLatch (uartSetTermios coreInit reset baud c t port lp).1.regs) ↔
          BelowMidpoint port.uartclk baud)) := by
  constructor
  · constructor
    · intro h
      exact h.allowed hpos hle
    · intro h
      exact h.programmed hpos hle
  · intro h
    have hlatch := (h.programmed hpos hle : Programmed coreInit reset baud c t port lp).latch
    rw [hlatch]
    exact closestRate_iff hpos hle h.fits

def console : Port := ⟨0, 100000000, 5, 0, 0, ⟨0, 0, 0, 0, 0, []⟩⟩

def eightBits : Cflag := ⟨.cs8, false, false, false, false⟩

def receiving : Termios := ⟨false, false, false, false, false, true⟩

def lpSubsysUp : LpSubsys := ⟨true, fun _ => 0⟩

theorem settings_exact_console :
    Programmed true console.regs 115200 eightBits receiving console lpSubsysUp :=
  (settings_exact_iff true console.regs 115200 eightBits receiving console lpSubsysUp
    (by decide) (by decide)).1.mpr ⟨by decide, by decide, by decide, Or.inl rfl⟩

/-- 50 baud needs the divisor 125000. -/
theorem settings_not_exact :
    ¬ Programmed true console.regs 50 eightBits receiving console lpSubsysUp := by
  intro h
  have hlatch := h.latch
  rw [(uartSetTermios_regs ..).1] at hlatch
  exact absurd hlatch (by decide)

end HiMpu.UartTermios
