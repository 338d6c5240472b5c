import HiMpu.TransitionSystem

/-!
# The UART crossbar

`drivers/uart_connect/uart_connect.c`.  Eight uarts and eight ports are paired
through two select registers of 4-bit fields and one enable register.  A field
below 8 selects an endpoint of the other kind, a field from 8 on one of the same
kind.  Uart and port functions of the source differ in the registers only and
are written once, for both kinds.
-/

namespace HiMpu

/-! ## Symmetric pairings -/

section SymmetricPairing

variable {α : Type*}

/-- What an enabled element selects is enabled and selects it back. -/
def SymmetricPairing (enabled : α → Prop) (peer : α → α) : Prop :=
  ∀ a, enabled a → enabled (peer a) ∧ peer (peer a) = a

namespace SymmetricPairing

variable {enabled : α → Prop} {peer : α → α}

theorem injective (hpair : SymmetricPairing enabled peer) {a b : α} (ha : enabled a)
    (hb : enabled b) (heq : peer a = peer b) : a = b := by
  rw [← (hpair a ha).2, ← (hpair b hb).2, heq]

theorem detach (hpair : SymmetricPairing enabled peer) {a : α} (ha : enabled a) :
    SymmetricPairing (fun x => enabled x ∧ x ≠ a ∧ x ≠ peer a) peer := by
  rintro x ⟨hx, hxa, hxp⟩
  obtain ⟨hpx, hback⟩ := hpair x hx
  refine ⟨⟨hpx, ?_, ?_⟩, hback⟩
  · rintro rfl
    exact hxp hback.symm
  · intro heq
    exact hxa (hpair.injective hx ha heq)

theorem attach [DecidableEq α] (hpair : SymmetricPairing enabled peer) {a b : α}
    (ha : ¬ enabled a) (hb : ¬ enabled b) :
    SymmetricPairing (fun x => x = a ∨ x = b ∨ enabled x)
      (Function.update (Function.update peer a b) b a) := by
  have hother : ∀ x, x ≠ a → x ≠ b →
      Function.update (Function.update peer a b) b a x = peer x := by
    intro x hxa hxb
    rw [Function.update_of_ne hxb, Function.update_of_ne hxa]
  have hfirst : Function.update (Function.update peer a b) b a a = b := by
    by_cases hab : a = b
    · subst hab
      exact Function.update_self ..
    · rw [Function.update_of_ne hab, Function.update_self]
  have hsecond : Function.update (Function.update peer a b) b a b = a := Function.update_self ..
  rintro x (rfl | rfl | hx)
  · rw [hfirst]
    exact ⟨Or.inr (Or.inl rfl), hsecond⟩
  · rw [hsecond]
    exact ⟨Or.inl rfl, hfirst⟩
  · obtain ⟨hpx, hback⟩ := hpair x hx
    have hxa : x ≠ a := fun heq => ha (heq ▸ hx)
    have hxb : x ≠ b := fun heq => hb (heq ▸ hx)
    rw [hother x hxa hxb]
    refine ⟨Or.inr (Or.inr hpx), ?_⟩
    rw [hother (peer x) (fun heq => ha (heq ▸ hpx)) (fun heq => hb (heq ▸ hpx)), hback]

theorem remove_iff (hpair : SymmetricPairing enabled peer) (a : α) :
    SymmetricPairing (fun x => enabled x ∧ x ≠ a) peer ↔ (enabled a → peer a = a) := by
  constructor
  · intro hafter ha
    by_contra hne
    obtain ⟨hpa, hback⟩ := hpair a ha
    exact (hafter (peer a) ⟨hpa, hne⟩).1.2 hback
  · rintro hself x ⟨hx, hxa⟩
    obtain ⟨hpx, hback⟩ := hpair x hx
    refine ⟨⟨hpx, ?_⟩, hback⟩
    rintro rfl
    exact hxa (hback.symm.trans (hself hpx))

end SymmetricPairing

end SymmetricPairing

namespace UartConnect

def uartConnectMaxNum : ℕ := 8
def uartPortIdOff : ℕ := 8
def uartSelRegRstVal : BitVec 32 := 0x76543210
def portSelRegRstVal : BitVec 32 := 0x76543210
def enableRegRstVal : BitVec 32 := 0xFFFF
def eio : ℤ := -5
def enodev : ℤ := -19
def einval : ℤ := -22

inductive Kind where
  | uart
  | port
deriving DecidableEq

def Kind.other : Kind → Kind
  | .uart => .port
  | .port => .uart

inductive Reg where
  | uartSel
  | portSel
  | enable
deriving DecidableEq

structure LpSubsys where
  ready : Bool
  reg : Reg → BitVec 32

/-! ## Register access -/

def lpSubsysRegRead (s : LpSubsys) (r : Reg) : Option (BitVec 32) :=
  if s.ready then some (s.reg r) else none

def lpSubsysRegWrite (s : LpSubsys) (r : Reg) (val : BitVec 32) : LpSubsys × ℤ :=
  if s.ready then ({ s with reg := Function.update s.reg r val }, 0) else (s, enodev)

def lpSubsysRegSetBits (s : LpSubsys) (r : Reg) (mask : BitVec 32) (setBit : Bool) :
    LpSubsys × ℤ :=
  if s.ready then
    let val := s.reg r &&& ~~~mask
    let val := if setBit then val ||| mask else val
    ({ s with reg := Function.update s.reg r val }, 0)
  else (s, enodev)

def selReg : Kind → Reg
  | .uart => .uartSel
  | .port => .portSel

def enableBit : Kind → ℕ → ℕ
  | .uart, no => no
  | .port, no => no + uartPortIdOff

def regShift (no : ℕ) : ℕ := no * 4
def regMask (no : ℕ) : BitVec 32 := 0xF#32 <<< regShift no

def getSel (k : Kind) (s : LpSubsys) (no : ℕ) : Option (BitVec 32) :=
  (lpSubsysRegRead s (selReg k)).map fun val => (val &&& regMask no) >>> regShift no

/-- `set_uart_sel` and `set_port_sel`; a failed write is reported as success. -/
def setSel (k : Kind) (s : LpSubsys) (no : ℕ) (val : BitVec 32) : LpSubsys × ℤ :=
  match lpSubsysRegRead s (selReg k) with
  | none => (s, enodev)
  | some old =>
    let new := (old &&& ~~~regMask no) ||| ((val &&& 0xF) <<< regShift no)
    ((lpSubsysRegWrite s (selReg k) new).1, 0)

def pinConnect (k : Kind) (s : LpSubsys) (no : ℕ) (setBit : Bool) : LpSubsys × ℤ :=
  if uartConnectMaxNum ≤ no then (s, einval)
  else ((lpSubsysRegSetBits s .enable (1#32 <<< enableBit k no) setBit).1, 0)

def uartConnect (s : LpSubsys) (no : ℕ) : LpSubsys × ℤ := pinConnect .uart s no true
def portConnect (s : LpSubsys) (no : ℕ) : LpSubsys × ℤ := pinConnect .port s no true
def uartDisconnect (s : LpSubsys) (no : ℕ) : LpSubsys × ℤ := pinConnect .uart s no false
def portDisconnect (s : LpSubsys) (no : ℕ) : LpSubsys × ℤ := pinConnect .port s no false

def getStatus (k : Kind) (s : LpSubsys) (no : ℕ) : ℤ :=
  match lpSubsysRegRead s .enable with
  | none => enodev
  | some val => if (1#32 <<< enableBit k no) &&& val ≠ 0 then 1 else 0

def setEnable (k : Kind) (s : LpSubsys) (no : ℕ) (enable : Bool) : LpSubsys × ℤ :=
  match lpSubsysRegRead s .enable with
  | none => (s, enodev)
  | some val =>
    let mask := 1#32 <<< enableBit k no
    lpSubsysRegWrite s .enable (if enable then val ||| mask else val &&& ~~~mask)

def unlink (k : Kind) (s : LpSubsys) (no : ℕ) : LpSubsys × ℤ :=
  match getSel k s no with
  | none => (s, enodev)
  | some old =>
    if old.toNat < uartPortIdOff then setEnable k.other s old.toNat false
    else setEnable k s (old.toNat - uartPortIdOff) false

def checkStatus (k : Kind) (s : LpSubsys) (no : ℕ) : LpSubsys × ℤ :=
  if uartConnectMaxNum ≤ no then (s, einval)
  else if getStatus k s no ≠ 0 then
    let off := pinConnect k s no false
    if off.2 ≠ 0 then (off.1, eio)
    else
      let cut := unlink k off.1 no
      if cut.2 ≠ 0 then (cut.1, eio) else (cut.1, 0)
  else (s, 0)

/-- The field with which an endpoint of one kind selects one of another. -/
def selOf (k target : Kind) (no : ℕ) : BitVec 32 :=
  BitVec.ofNat 32 (if k = target then no + uartPortIdOff else no)

def pairConnect (k l : Kind) (s : LpSubsys) (src dst : ℕ) : LpSubsys × ℤ :=
  let first := checkStatus k s src
  if first.2 ≠ 0 then first
  else
    let second := checkStatus l first.1 dst
    if second.2 ≠ 0 then second
    else
      let srcSel := setSel k second.1 src (selOf k l dst)
      let dstSel := setSel l srcSel.1 dst (selOf l k src)
      if srcSel.2 + dstSel.2 ≠ 0 then (dstSel.1, eio)
      else
        let srcOn := pinConnect k dstSel.1 src true
        let dstOn := pinConnect l srcOn.1 dst true
        if srcOn.2 + dstOn.2 ≠ 0 then (dstOn.1, eio) else (dstOn.1, 0)

def uart2uartConnect (s : LpSubsys) (src dst : ℕ) : LpSubsys × ℤ :=
  pairConnect .uart .uart s src dst

def uart2portConnect (s : LpSubsys) (src dst : ℕ) : LpSubsys × ℤ :=
  pairConnect .uart .port s src dst

def port2portConnect (s : LpSubsys) (src dst : ℕ) : LpSubsys × ℤ :=
  pairConnect .port .port s src dst

inductive ConnectMode where
  | uart2Uart
  | uart2Port
  | port2Port
  | uartDisconnect
  | portDisconnect
  | inval

structure UartConnectCfg where
  mode : ConnectMode
  src : ℕ
  dst : ℕ

def setUartConnectCfg (s : LpSubsys) (cfg : UartConnectCfg) : LpSubsys × ℤ :=
  match cfg.mode with
  | .uart2Uart => uart2uartConnect s cfg.src cfg.dst
  | .uart2Port => uart2portConnect s cfg.src cfg.dst
  | .port2Port => port2portConnect s cfg.src cfg.dst
  | .uartDisconnect => uartDisconnect s cfg.src
  | .portDisconnect => portDisconnect s cfg.src
  | .inval => (s, einval)

def uartConnectReset (s : LpSubsys) : LpSubsys × ℤ :=
  let uartSel := lpSubsysRegWrite s .uartSel uartSelRegRstVal
  let portSel := lpSubsysRegWrite uartSel.1 .portSel portSelRegRstVal
  if uartSel.2 + portSel.2 ≠ 0 then (portSel.1, eio)
  else
    let enable := lpSubsysRegWrite portSel.1 .enable enableRegRstVal
    if enable.2 ≠ 0 then (enable.1, eio) else (enable.1, 0)

inductive Request where
  | set (cfg : UartConnectCfg)
  | reset

def request (s : LpSubsys) : Request → LpSubsys
  | .set cfg => (setUartConnectCfg s cfg).1
  | .reset => (uartConnectReset s).1

/-! ## The pairing that the registers encode -/

abbrev Endpoint := Kind × Fin 8

def selField (val : BitVec 32) (no : ℕ) : ℕ := ((val &&& regMask no) >>> regShift no).toNat

def decodeSel (k : Kind) (sel : ℕ) : Endpoint :=
  if sel < uartPortIdOff then (k.other, Fin.ofNat 8 sel) else (k, Fin.ofNat 8 (sel - uartPortIdOff))

def Enabled (s : LpSubsys) (e : Endpoint) : Prop :=
  (s.reg .enable).getLsbD (enableBit e.1 e.2) = true

def peer (s : LpSubsys) (e : Endpoint) : Endpoint :=
  decodeSel e.1 (selField (s.reg (selReg e.1)) e.2)

instance (s : LpSubsys) (e : Endpoint) : Decidable (Enabled s e) :=
  inferInstanceAs (Decidable (_ = true))

def Paired (s : LpSubsys) : Prop := SymmetricPairing (Enabled s) (peer s)

/-! ## Bits and fields -/

theorem enableBit_inj (e f : Endpoint) : enableBit e.1 e.2 = enableBit f.1 f.2 ↔ e = f := by
  obtain ⟨k, i⟩ := e
  obtain ⟨l, j⟩ := f
  have hi := i.isLt
  have hj := j.isLt
  cases k <;> cases l <;> simp only [enableBit, uartPortIdOff, Prod.mk.injEq, reduceCtorEq,
    false_and, true_and, iff_false, Fin.ext_iff] <;> omega

theorem enableBit_lt (e : Endpoint) : enableBit e.1 e.2 < 32 := by
  obtain ⟨k, no⟩ := e
  have hno := no.isLt
  cases k <;> simp only [enableBit, uartPortIdOff] <;> omega

theorem getLsbD_one_shiftLeft {n : ℕ} (hn : n < 32) (b : ℕ) :
    (1#32 <<< n).getLsbD b = decide (b = n) := by
  rw [BitVec.getLsbD_shiftLeft, BitVec.getLsbD_one]
  by_cases hb : b = n
  · subst hb
    simp [hn]
  · by_cases hlt : b < n
    · simp [hlt, hb]
    · have hne : ¬ b - n = 0 := by omega
      simp [hne, hb]

theorem getLsbD_enableMask (e f : Endpoint) :
    (1#32 <<< enableBit e.1 e.2).getLsbD (enableBit f.1 f.2) = decide (f = e) := by
  rw [getLsbD_one_shiftLeft (enableBit_lt e)]
  exact decide_eq_decide.mpr (enableBit_inj f e)

theorem getLsbD_clear (val : BitVec 32) (e f : Endpoint) :
    (val &&& ~~~(1#32 <<< enableBit e.1 e.2)).getLsbD (enableBit f.1 f.2) =
      (val.getLsbD (enableBit f.1 f.2) && !decide (f = e)) := by
  rw [BitVec.getLsbD_and, BitVec.getLsbD_not, getLsbD_enableMask, decide_eq_true (enableBit_lt f),
    Bool.true_and]

theorem getLsbD_low (i : ℕ) : (0xF#32).getLsbD i = decide (i < 4) := by
  by_cases hi : i < 32
  · interval_cases i <;> rfl
  · rw [BitVec.getLsbD_of_ge _ _ (by omega), eq_comm, decide_eq_false_iff_not]
    omega

theorem getLsbD_regMask {no b : ℕ} (hb : b < 32) :
    (regMask no).getLsbD b = decide (no * 4 ≤ b ∧ b < no * 4 + 4) := by
  unfold regMask regShift
  rw [BitVec.getLsbD_shiftLeft, getLsbD_low]
  by_cases hle : no * 4 ≤ b
  · have hsub : (b - no * 4 < 4) ↔ b < no * 4 + 4 := by omega
    simp [hb, hle, hsub]
  · simp [hle, Nat.lt_of_not_le hle]

theorem getLsbD_selBits (val : BitVec 32) {no : ℕ} (hno : no < 8) (i : ℕ) :
    ((val &&& regMask no) >>> regShift no).getLsbD i =
      (decide (i < 4) && val.getLsbD (no * 4 + i)) := by
  rw [BitVec.getLsbD_ushiftRight, BitVec.getLsbD_and]
  unfold regShift
  by_cases hi : no * 4 + i < 32
  · rw [getLsbD_regMask hi, Bool.and_comm]
    have hiff : (no * 4 ≤ no * 4 + i ∧ no * 4 + i < no * 4 + 4) ↔ i < 4 := by omega
    simp only [hiff]
  · have hfour : ¬ i < 4 := by omega
    rw [BitVec.getLsbD_of_ge _ _ (by omega)]
    simp [hfour]

theorem selField_lt (val : BitVec 32) {no : ℕ} (hno : no < 8) : selField val no < 16 := by
  have hlow : (val &&& regMask no) >>> regShift no =
      ((val &&& regMask no) >>> regShift no) &&& 0xF#32 := by
    apply BitVec.eq_of_getLsbD_eq
    intro i _
    rw [BitVec.getLsbD_and, getLsbD_selBits val hno, getLsbD_low]
    cases decide (i < 4) <;> simp
  unfold selField
  rw [hlow, BitVec.toNat_and]
  have hle := @Nat.and_le_right ((val &&& regMask no) >>> regShift no).toNat (0xF#32).toNat
  have hval : (0xF#32).toNat = 15 := rfl
  omega

theorem selField_write (old val : BitVec 32) {i j : ℕ} (hi : i < 8) (hj : j < 8) :
    selField ((old &&& ~~~regMask i) ||| ((val &&& 0xF) <<< regShift i)) j =
      if j = i then (val &&& 0xF).toNat else selField old j := by
  have hbits : ∀ b, b < 4 →
      ((old &&& ~~~regMask i) ||| ((val &&& 0xF) <<< regShift i)).getLsbD (j * 4 + b) =
        if j = i then val.getLsbD b else old.getLsbD (j * 4 + b) := by
    intro b hb
    have hlt : j * 4 + b < 32 := by omega
    rw [BitVec.getLsbD_or, BitVec.getLsbD_and, BitVec.getLsbD_not, getLsbD_regMask hlt,
      BitVec.getLsbD_shiftLeft, BitVec.getLsbD_and]
    unfold regShift
    by_cases hji : j = i
    · subst hji
      have hsub : j * 4 + b - j * 4 = b := by omega
      have hin : j * 4 ≤ j * 4 + b ∧ j * 4 + b < j * 4 + 4 := by omega
      have hlow : (0xF : BitVec 32).getLsbD b = true := by
        rw [show (0xF : BitVec 32) = 0xF#32 from rfl, getLsbD_low]
        simpa using hb
      rw [hsub, hlow]
      simp [hlt, hin]
    · have hout : ¬ (i * 4 ≤ j * 4 + b ∧ j * 4 + b < i * 4 + 4) := by omega
      have hshift : (!decide (j * 4 + b < i * 4) &&
          (val.getLsbD (j * 4 + b - i * 4) && (0xF : BitVec 32).getLsbD (j * 4 + b - i * 4))) =
            false := by
        rw [show (0xF : BitVec 32) = 0xF#32 from rfl, getLsbD_low]
        by_cases hbelow : j * 4 + b < i * 4
        · simp [hbelow]
        · have hfour : ¬ j * 4 + b - i * 4 < 4 := by omega
          simp [hfour]
      rw [Bool.and_assoc, hshift, if_neg hji]
      simp [hlt, hout]
  have heq : (((old &&& ~~~regMask i) ||| ((val &&& 0xF) <<< regShift i)) &&& regMask j) >>>
      regShift j = if j = i then val &&& 0xF else (old &&& regMask j) >>> regShift j := by
    apply BitVec.eq_of_getLsbD_eq
    intro b _
    rw [getLsbD_selBits _ hj]
    by_cases hb : b < 4
    · rw [hbits b hb]
      by_cases hji : j = i
      · rw [if_pos hji, if_pos hji, BitVec.getLsbD_and, show (0xF : BitVec 32) = 0xF#32 from rfl,
          getLsbD_low, Bool.and_comm]
      · rw [if_neg hji, if_neg hji, getLsbD_selBits _ hj]
    · by_cases hji : j = i
      · rw [if_pos hji, BitVec.getLsbD_and, show (0xF : BitVec 32) = 0xF#32 from rfl, getLsbD_low]
        simp [hb]
      · rw [if_neg hji, getLsbD_selBits _ hj]
        simp [hb]
  unfold selField
  rw [heq]
  split <;> rfl

/-! ## What each operation does to the pairing -/

theorem decodeSel_selOf (k l : Kind) (j : Fin 8) :
    decodeSel k (selOf k l j &&& 0xF).toNat = (l, j) := by
  cases k <;> cases l <;> fin_cases j <;> rfl

section Ready

variable {s : LpSubsys} (hready : s.ready = true)
include hready

theorem setSel_spec (k l : Kind) (i j : Fin 8) :
    ∃ t, setSel k s i (selOf k l j) = (t, 0) ∧ t.ready = true ∧
      (∀ e, Enabled t e ↔ Enabled s e) ∧ peer t = Function.update (peer s) (k, i) (l, j) := by
  unfold setSel lpSubsysRegRead lpSubsysRegWrite
  simp only [hready, if_true]
  refine ⟨_, rfl, rfl, ?_, ?_⟩
  · intro e
    unfold Enabled
    cases k <;> simp [selReg]
  · funext e
    obtain ⟨m, n⟩ := e
    unfold peer
    by_cases hmk : m = k
    · subst hmk
      simp only [Function.update_self]
      rw [selField_write _ _ i.isLt n.isLt]
      by_cases hn : n = i
      · subst hn
        rw [if_pos rfl, Function.update_self, decodeSel_selOf]
      · rw [if_neg (fun h => hn (Fin.ext h)), Function.update_of_ne (by simpa using hn)]
    · have hreg : selReg m ≠ selReg k := by
        cases m <;> cases k <;> simp_all [selReg]
      rw [Function.update_of_ne (by simp [hmk])]
      simp only [Function.update_of_ne hreg]

theorem pinConnect_spec (k : Kind) (i : Fin 8) (setBit : Bool) :
    ∃ t, pinConnect k s i setBit = (t, 0) ∧ t.ready = true ∧ peer t = peer s ∧
      ∀ e, Enabled t e ↔ if setBit then e = (k, i) ∨ Enabled s e else Enabled s e ∧ e ≠ (k, i) := by
  unfold pinConnect lpSubsysRegSetBits
  rw [if_neg (by simp [uartConnectMaxNum])]
  simp only [hready, if_true]
  refine ⟨_, rfl, rfl, ?_, ?_⟩
  · funext e
    unfold peer
    cases e.1 <;> simp [selReg]
  · intro e
    have hclear := getLsbD_clear (s.reg .enable) (k, i) e
    have hmask := getLsbD_enableMask (k, i) e
    unfold Enabled
    simp only [Function.update_self]
    cases setBit
    · simp only [Bool.false_eq_true, if_false, hclear]
      simp
    · simp only [if_true, BitVec.getLsbD_or, hclear, hmask]
      by_cases he : e = (k, i) <;> simp [he]

theorem setEnable_spec (k : Kind) (i : Fin 8) :
    ∃ t, setEnable k s i false = (t, 0) ∧ t.ready = true ∧ peer t = peer s ∧
      ∀ e, Enabled t e ↔ Enabled s e ∧ e ≠ (k, i) := by
  unfold setEnable lpSubsysRegRead lpSubsysRegWrite
  simp only [hready, if_true, Bool.false_eq_true, if_false]
  refine ⟨_, rfl, rfl, ?_, ?_⟩
  · funext e
    unfold peer
    cases e.1 <;> simp [selReg]
  · intro e
    have hclear := getLsbD_clear (s.reg .enable) (k, i) e
    unfold Enabled
    simp only [Function.update_self, hclear]
    simp

theorem unlink_spec (k : Kind) (i : Fin 8) :
    ∃ t, unlink k s i = (t, 0) ∧ t.ready = true ∧ peer t = peer s ∧
      ∀ e, Enabled t e ↔ Enabled s e ∧ e ≠ peer s (k, i) := by
  have hlt := selField_lt (s.reg (selReg k)) i.isLt
  have hget : getSel k s i = some ((s.reg (selReg k) &&& regMask i) >>> regShift i) := by
    unfold getSel lpSubsysRegRead
    simp [hready]
  have hpeer : peer s (k, i) = decodeSel k (selField (s.reg (selReg k)) i) := rfl
  unfold unlink
  rw [hget, hpeer]
  change ∃ t, (if selField (s.reg (selReg k)) i < uartPortIdOff
    then setEnable k.other s (selField (s.reg (selReg k)) i) false
    else setEnable k s (selField (s.reg (selReg k)) i - uartPortIdOff) false) = (t, 0) ∧ _
  generalize selField (s.reg (selReg k)) i = sel at hlt
  unfold decodeSel
  by_cases hsel : sel < uartPortIdOff
  · rw [if_pos hsel, if_pos hsel]
    have hval : (Fin.ofNat 8 sel).val = sel := Nat.mod_eq_of_lt hsel
    have hspec := setEnable_spec hready k.other (Fin.ofNat 8 sel)
    rw [hval] at hspec
    exact hspec
  · rw [if_neg hsel, if_neg hsel]
    have hval : (Fin.ofNat 8 (sel - uartPortIdOff)).val = sel - uartPortIdOff :=
      Nat.mod_eq_of_lt (by unfold uartPortIdOff; omega)
    have hspec := setEnable_spec hready k (Fin.ofNat 8 (sel - uartPortIdOff))
    rw [hval] at hspec
    exact hspec

theorem getStatus_ne_zero_iff (e : Endpoint) : getStatus e.1 s e.2 ≠ 0 ↔ Enabled s e := by
  have hand : (1#32 <<< enableBit e.1 e.2) &&& s.reg .enable ≠ 0 ↔ Enabled s e := by
    unfold Enabled
    constructor
    · intro hne
      by_contra hoff
      apply hne
      apply BitVec.eq_of_getLsbD_eq
      intro b _
      rw [BitVec.getLsbD_and, getLsbD_one_shiftLeft (enableBit_lt e)]
      by_cases hb : b = enableBit e.1 e.2
      · subst hb
        simpa using hoff
      · simp [hb]
    · intro hon hzero
      have hbit := congrArg (fun v : BitVec 32 => v.getLsbD (enableBit e.1 e.2)) hzero
      simp only [BitVec.getLsbD_and, getLsbD_enableMask, hon] at hbit
      simp at hbit
  unfold getStatus lpSubsysRegRead
  simp only [hready, if_true]
  rw [← hand]
  split <;> simp_all

/-- A check in range takes the link of the endpoint down; it does nothing if it was disabled. -/
theorem checkStatus_effect (k : Kind) (i : Fin 8) :
    ∃ t, checkStatus k s i = (t, 0) ∧ t.ready = true ∧
      (¬ Enabled s (k, i) ∧ t = s ∨ Enabled s (k, i) ∧ peer t = peer s ∧
        ∀ e, Enabled t e ↔ Enabled s e ∧ e ≠ (k, i) ∧ e ≠ peer s (k, i)) := by
  unfold checkStatus
  rw [if_neg (by simp [uartConnectMaxNum])]
  by_cases hon : Enabled s (k, i)
  · rw [if_pos ((getStatus_ne_zero_iff hready (k, i)).mpr hon)]
    obtain ⟨t, ht, htready, htpeer, hten⟩ := pinConnect_spec hready k i false
    obtain ⟨u, hu, huready, hupeer, huen⟩ := unlink_spec htready k i
    simp only [ht, hu, ne_eq, not_true_eq_false, if_false]
    refine ⟨u, rfl, huready, Or.inr ⟨hon, hupeer.trans htpeer, fun e => ?_⟩⟩
    rw [huen e, hten e, htpeer]
    simp [and_assoc]
  · rw [if_neg (fun h => hon ((getStatus_ne_zero_iff hready (k, i)).mp h))]
    exact ⟨s, rfl, hready, Or.inl ⟨hon, rfl⟩⟩

theorem checkStatus_spec (k : Kind) (i : Fin 8) (hpair : Paired s) :
    ∃ t, checkStatus k s i = (t, 0) ∧ t.ready = true ∧ Paired t ∧ ¬ Enabled t (k, i) ∧
      ∀ e, Enabled t e → Enabled s e := by
  obtain ⟨t, ht, htready, ⟨hoff, rfl⟩ | ⟨hon, hpeer, hiff⟩⟩ := checkStatus_effect hready k i
  · exact ⟨t, ht, htready, hpair, hoff, fun e he => he⟩
  · refine ⟨t, ht, htready, ?_, fun h => ((hiff _).mp h).2.1 rfl, fun e he => ((hiff e).mp he).1⟩
    have hdetach := hpair.detach hon
    unfold Paired
    rw [hpeer, funext fun e => propext (hiff e)]
    exact hdetach

theorem pairConnect_paired (k l : Kind) (src dst : ℕ) (hpair : Paired s) :
    Paired (pairConnect k l s src dst).1 := by
  unfold pairConnect
  by_cases hsrc : uartConnectMaxNum ≤ src
  · have hfail : checkStatus k s src = (s, einval) := by
      unfold checkStatus
      rw [if_pos hsrc]
    simp only [hfail]
    exact hpair
  obtain ⟨i, rfl⟩ : ∃ i : Fin 8, i.val = src := ⟨⟨src, Nat.lt_of_not_le hsrc⟩, rfl⟩
  obtain ⟨t, ht, htready, htpair, htoff, -⟩ := checkStatus_spec hready k i hpair
  simp only [ht, ne_eq, not_true_eq_false, if_false]
  by_cases hdst : uartConnectMaxNum ≤ dst
  · have hfail : checkStatus l t dst = (t, einval) := by
      unfold checkStatus
      rw [if_pos hdst]
    simp only [hfail]
    exact htpair
  obtain ⟨j, rfl⟩ : ∃ j : Fin 8, j.val = dst := ⟨⟨dst, Nat.lt_of_not_le hdst⟩, rfl⟩
  obtain ⟨u, hu, huready, hupair, huoff, hule⟩ := checkStatus_spec htready l j htpair
  obtain ⟨v, hv, hvready, hven, hvpeer⟩ := setSel_spec huready k l i j
  obtain ⟨w, hw, hwready, hwen, hwpeer⟩ := setSel_spec hvready l k j i
  obtain ⟨x, hx, hxready, hxpeer, hxen⟩ := pinConnect_spec hwready k i true
  obtain ⟨y, hy, -, hypeer, hyen⟩ := pinConnect_spec hxready l j true
  simp only [hu, hv, hw, hx, hy, not_true_eq_false, if_false, add_zero]
  have hiff : ∀ e, Enabled y e ↔ e = (k, i) ∨ e = (l, j) ∨ Enabled u e := by
    intro e
    rw [hyen e, if_pos rfl, hxen e, if_pos rfl, hwen e, hven e]
    tauto
  unfold Paired
  rw [hypeer, hxpeer, hwpeer, hvpeer, funext fun e => propext (hiff e)]
  exact hupair.attach (fun h => htoff (hule _ h)) huoff

theorem pinDisconnect_paired_iff (k : Kind) (no : ℕ) (hpair : Paired s) :
    Paired (pinConnect k s no false).1 ↔
      ∀ i : Fin 8, i.val = no → Enabled s (k, i) → peer s (k, i) = (k, i) := by
  by_cases hno : uartConnectMaxNum ≤ no
  · have hfail : pinConnect k s no false = (s, einval) := by
      unfold pinConnect
      rw [if_pos hno]
    rw [hfail]
    refine ⟨fun _ i hi => ?_, fun _ => hpair⟩
    have hlt := i.isLt
    unfold uartConnectMaxNum at hno
    omega
  · obtain ⟨i, rfl⟩ : ∃ i : Fin 8, i.val = no := ⟨⟨no, Nat.lt_of_not_le hno⟩, rfl⟩
    obtain ⟨t, ht, -, htpeer, hten⟩ := pinConnect_spec hready k i false
    have hiff : ∀ e, Enabled t e ↔ Enabled s e ∧ e ≠ (k, i) := fun e => hten e
    rw [ht]
    unfold Paired
    rw [htpeer, funext fun e => propext (hiff e), hpair.remove_iff]
    constructor
    · intro hself j hji
      obtain rfl : j = i := Fin.ext hji
      exact hself
    · intro hself
      exact hself i rfl

end Ready

def ResetValues (s : LpSubsys) : Prop :=
  s.reg .uartSel = uartSelRegRstVal ∧ s.reg .portSel = portSelRegRstVal ∧
    s.reg .enable = enableRegRstVal

theorem ResetValues.paired {s : LpSubsys} (hreset : ResetValues s) : Paired s := by
  obtain ⟨huart, hport, henable⟩ := hreset
  have hpeer : ∀ e : Endpoint, peer s e = (e.1.other, e.2) := by
    rintro ⟨k, i⟩
    unfold peer
    cases k
    · simp only [selReg, huart]
      fin_cases i <;> rfl
    · simp only [selReg, hport]
      fin_cases i <;> rfl
  have hon : ∀ e : Endpoint, Enabled s e := by
    rintro ⟨k, i⟩
    unfold Enabled
    rw [henable]
    cases k <;> fin_cases i <;> rfl
  intro e _
  refine ⟨hon _, ?_⟩
  rw [hpeer e, hpeer]
  cases e with
  | mk k i => cases k <;> rfl

theorem reset_paired {s : LpSubsys} (hready : s.ready = true) :
    Paired (uartConnectReset s).1 := by
  apply ResetValues.paired
  unfold uartConnectReset lpSubsysRegWrite
  simp [ResetValues, hready]

theorem request_of_not_ready {s : LpSubsys} (hready : s.ready = false) (q : Request) :
    request s q = s := by
  have hpin : ∀ k no setBit, (pinConnect k s no setBit).1 = s := by
    intro k no setBit
    unfold pinConnect lpSubsysRegSetBits
    split <;> simp [hready]
  have hunlink : ∀ k no, unlink k s no = (s, enodev) := by
    intro k no
    simp [unlink, getSel, lpSubsysRegRead, hready]
  have hcheck : ∀ k no, (checkStatus k s no).1 = s ∧ (checkStatus k s no).2 ≠ 0 := by
    intro k no
    have hstatus : getStatus k s no ≠ 0 := by
      simp [getStatus, lpSubsysRegRead, hready, enodev]
    unfold checkStatus
    rw [if_pos hstatus]
    split
    · exact ⟨rfl, by simp [einval]⟩
    · simp only [hpin, hunlink]
      split <;> simp [enodev, eio]
  have hpair : ∀ k l src dst, (pairConnect k l s src dst).1 = s := by
    intro k l src dst
    unfold pairConnect
    rw [if_pos (hcheck k src).2]
    exact (hcheck k src).1
  cases q with
  | set cfg =>
    obtain ⟨mode, src, dst⟩ := cfg
    cases mode with
    | uart2Uart => exact hpair _ _ src dst
    | uart2Port => exact hpair _ _ src dst
    | port2Port => exact hpair _ _ src dst
    | uartDisconnect => exact hpin _ src false
    | portDisconnect => exact hpin _ src false
    | inval => rfl
  | reset => simp [request, uartConnectReset, lpSubsysRegWrite, hready, enodev]

/-- A disconnect request names an endpoint that is disabled or its own partner. -/
def Balanced (s : LpSubsys) : Request → Prop
  | .set cfg =>
    match cfg.mode with
    | .uartDisconnect => s.ready = true → ∀ i : Fin 8, i.val = cfg.src →
        Enabled s (.uart, i) → peer s (.uart, i) = (.uart, i)
    | .portDisconnect => s.ready = true → ∀ i : Fin 8, i.val = cfg.src →
        Enabled s (.port, i) → peer s (.port, i) = (.port, i)
    | _ => True
  | .reset => True

theorem request_paired_iff {s : LpSubsys} (hpair : Paired s) (q : Request) :
    Paired (request s q) ↔ Balanced s q := by
  cases hready : s.ready with
  | false =>
    rw [request_of_not_ready hready]
    refine ⟨fun _ => ?_, fun _ => hpair⟩
    cases q with
    | set cfg => cases hmode : cfg.mode <;> simp [Balanced, hmode, hready]
    | reset => trivial
  | true =>
    cases q with
    | set cfg =>
      obtain ⟨mode, src, dst⟩ := cfg
      cases mode with
      | uart2Uart => exact iff_of_true (pairConnect_paired hready _ _ src dst hpair) trivial
      | uart2Port => exact iff_of_true (pairConnect_paired hready _ _ src dst hpair) trivial
      | port2Port => exact iff_of_true (pairConnect_paired hready _ _ src dst hpair) trivial
      | uartDisconnect =>
        have hiff := pinDisconnect_paired_iff hready .uart src hpair
        exact hiff.trans ⟨fun h _ => h, fun h => h hready⟩
      | portDisconnect =>
        have hiff := pinDisconnect_paired_iff hready .port src hpair
        exact hiff.trans ⟨fun h _ => h, fun h => h hready⟩
      | inval => exact iff_of_true hpair trivial
    | reset => exact iff_of_true (reset_paired hready) trivial

def crossbar : TransitionSystem LpSubsys Request where
  init := ResetValues
  step s q s' := s' = request s q

/-- In every run of balanced requests the enabled endpoints are paired, no two
of them select the same peer, and a further request keeps this exactly when it
is balanced. -/
theorem pairing_of_reachable {s : LpSubsys} (hreach : (crossbar.restrict Balanced).Reachable s) :
    Paired s ∧ (∀ e f, Enabled s e → Enabled s f → peer s e = peer s f → e = f) ∧
      ∀ q, Paired (request s q) ↔ Balanced s q := by
  have hpair : Paired s := by
    apply hreach.invariant
    · intro s hreset
      exact hreset.paired
    · rintro s q s' - hpair ⟨hbal, rfl⟩
      exact (request_paired_iff hpair q).mpr hbal
  exact ⟨hpair, fun e f he hf heq => hpair.injective he hf heq, request_paired_iff hpair⟩

/-! ## Requests after reset -/

def afterReset : LpSubsys where
  ready := true
  reg
    | .uartSel => uartSelRegRstVal
    | .portSel => portSelRegRstVal
    | .enable => enableRegRstVal

def joined : LpSubsys := request afterReset (.set ⟨.uart2Uart, 0, 1⟩)

theorem joined_paired : peer joined (.uart, 0) = (.uart, 1) ∧ Paired joined := by
  have hreach : (crossbar.restrict Balanced).Reachable joined :=
    TransitionSystem.Reachable.step (a := .set ⟨.uart2Uart, 0, 1⟩)
      (TransitionSystem.Reachable.init (s := afterReset) ⟨rfl, rfl, rfl⟩) ⟨trivial, rfl⟩
  exact ⟨by decide +kernel, (pairing_of_reachable hreach).1⟩

def rejoined : LpSubsys :=
  request (request afterReset (.set ⟨.uartDisconnect, 0, 0⟩)) (.set ⟨.uart2Uart, 0, 1⟩)

/-- The disconnect leaves port 0 enabled; the later connect does not unlink it,
and port 0 and uart 1 both select uart 0. -/
theorem disconnect_leaves_partner :
    crossbar.Reachable rejoined ∧
      ¬ Paired (request afterReset (.set ⟨.uartDisconnect, 0, 0⟩)) ∧
      Enabled rejoined (.port, 0) ∧ Enabled rejoined (.uart, 1) ∧
      peer rejoined (.port, 0) = (.uart, 0) ∧ peer rejoined (.uart, 1) = (.uart, 0) := by
  have hstart : crossbar.Reachable afterReset := TransitionSystem.Reachable.init ⟨rfl, rfl, rfl⟩
  have hfirst : crossbar.Reachable (request afterReset (.set ⟨.uartDisconnect, 0, 0⟩)) :=
    hstart.step (a := .set ⟨.uartDisconnect, 0, 0⟩) rfl
  have hreach : crossbar.Reachable rejoined := hfirst.step (a := .set ⟨.uart2Uart, 0, 1⟩) rfl
  refine ⟨hreach, ?_, by decide +kernel, by decide +kernel, by decide +kernel, by decide +kernel⟩
  intro hpair
  have hon : Enabled (request afterReset (.set ⟨.uartDisconnect, 0, 0⟩)) (.port, 0) := by
    decide +kernel
  have hoff : ¬ Enabled (request afterReset (.set ⟨.uartDisconnect, 0, 0⟩))
      (peer (request afterReset (.set ⟨.uartDisconnect, 0, 0⟩)) (.port, 0)) := by
    decide +kernel
  exact hoff (hpair _ hon).1

end UartConnect

end HiMpu
