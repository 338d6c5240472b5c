import HiMpu.UartConnect

/-!
# Refused requests to the crossbar

The connect functions check the source and take its old link down before they
check the destination.  A request that is refused leaves the registers as they
were, unless it is the destination that is out of range and the source was
connected.
-/

namespace HiMpu.UartConnect

variable {s : LpSubsys}

def ConnectMode.ends : ConnectMode → Option (Kind × Kind)
  | .uart2Uart => some (.uart, .uart)
  | .uart2Port => some (.uart, .port)
  | .port2Port => some (.port, .port)
  | _ => none

def Atomic (s : LpSubsys) (cfg : UartConnectCfg) : Prop :=
  (setUartConnectCfg s cfg).2 ≠ 0 → (setUartConnectCfg s cfg).1.reg = s.reg

def TearsDown (s : LpSubsys) (cfg : UartConnectCfg) : Prop :=
  s.ready = true ∧ uartConnectMaxNum ≤ cfg.dst ∧ ∃ k l, cfg.mode.ends = some (k, l) ∧
    ∃ i : Fin 8, i.val = cfg.src ∧ Enabled s (k, i)

section Ready

variable (hready : s.ready = true)
include hready

theorem checkStatus_frame (k : Kind) (i : Fin 8) :
    ∃ t, checkStatus k s i = (t, 0) ∧ t.ready = true ∧ ¬ Enabled t (k, i) ∧
      (¬ Enabled s (k, i) → t = s) := by
  obtain ⟨t, ht, htready, ⟨hoff, rfl⟩ | ⟨hon, -, hiff⟩⟩ := checkStatus_effect hready k i
  · exact ⟨t, ht, htready, hoff, fun _ => rfl⟩
  · exact ⟨t, ht, htready, fun h => ((hiff _).mp h).2.1 rfl, fun hoff => absurd hon hoff⟩

theorem pairConnect_ok (k l : Kind) (i j : Fin 8) : (pairConnect k l s i j).2 = 0 := by
  obtain ⟨t, ht, htready, -, -⟩ := checkStatus_frame hready k i
  obtain ⟨u, hu, huready, -, -⟩ := checkStatus_frame htready l j
  obtain ⟨v, hv, hvready, -, -⟩ := setSel_spec huready k l i j
  obtain ⟨w, hw, hwready, -, -⟩ := setSel_spec hvready l k j i
  obtain ⟨x, hx, hxready, -, -⟩ := pinConnect_spec hwready k i true
  obtain ⟨y, hy, -, -, -⟩ := pinConnect_spec hxready l j true
  unfold pairConnect
  simp only [ht, hu, hv, hw, hx, hy, ne_eq, not_true_eq_false, if_false, add_zero]

theorem pairConnect_atomic_iff (k l : Kind) (src dst : ℕ) :
    ((pairConnect k l s src dst).2 ≠ 0 → (pairConnect k l s src dst).1.reg = s.reg) ↔
      ¬ (uartConnectMaxNum ≤ dst ∧ ∃ i : Fin 8, i.val = src ∧ Enabled s (k, i)) := by
  by_cases hsrc : uartConnectMaxNum ≤ src
  · have hfail : checkStatus k s src = (s, einval) := if_pos hsrc
    have hout : ¬ ∃ i : Fin 8, i.val = src ∧ Enabled s (k, i) := by
      rintro ⟨i, hi, -⟩
      have hlt := i.isLt
      unfold uartConnectMaxNum at hsrc
      omega
    have hsame : pairConnect k l s src dst = (s, einval) := by
      unfold pairConnect
      simp only [hfail]
      rfl
    rw [hsame]
    exact iff_of_true (fun _ => rfl) fun h => hout h.2
  obtain ⟨i, rfl⟩ : ∃ i : Fin 8, i.val = src := ⟨⟨src, Nat.lt_of_not_le hsrc⟩, rfl⟩
  obtain ⟨t, ht, htready, htoff, htsame⟩ := checkStatus_frame hready k i
  by_cases hdst : uartConnectMaxNum ≤ dst
  · have hfail : checkStatus l t dst = (t, einval) := if_pos hdst
    have hcall : pairConnect k l s i dst = (t, einval) := by
      unfold pairConnect
      simp only [ht, hfail]
      rfl
    rw [hcall]
    constructor
    · rintro hatomic ⟨-, j, hji, hon⟩
      obtain rfl : j = i := Fin.ext hji
      have hne : einval ≠ 0 := by decide
      have hreg : t.reg = s.reg := hatomic hne
      refine htoff ?_
      unfold Enabled at hon ⊢
      rw [hreg]
      exact hon
    · intro hnot _
      rw [htsame fun hon => hnot ⟨hdst, i, rfl, hon⟩]
  · obtain ⟨j, rfl⟩ : ∃ j : Fin 8, j.val = dst := ⟨⟨dst, Nat.lt_of_not_le hdst⟩, rfl⟩
    exact iff_of_true (fun hret => absurd (pairConnect_ok hready k l i j) hret) fun h => hdst h.1

end Ready

theorem pinConnect_atomic (k : Kind) (no : ℕ) (setBit : Bool)
    (hret : (pinConnect k s no setBit).2 ≠ 0) : (pinConnect k s no setBit).1.reg = s.reg := by
  unfold pinConnect at hret ⊢
  split
  case isTrue => rfl
  case isFalse hno =>
    rw [if_neg hno] at hret
    exact absurd rfl hret

/-- A refused request is atomic unless its destination is out of range and its source was
connected. -/
theorem setUartConnectCfg_atomic_iff (s : LpSubsys) (cfg : UartConnectCfg) :
    Atomic s cfg ↔ ¬ TearsDown s cfg := by
  cases hready : s.ready with
  | false =>
    have hsame : (setUartConnectCfg s cfg).1 = s := request_of_not_ready hready (.set cfg)
    refine iff_of_true (fun _ => by rw [hsame]) ?_
    rintro ⟨hon, -⟩
    rw [hready] at hon
    cases hon
  | true =>
    have hconnect : ∀ k l, cfg.mode.ends = some (k, l) →
        (¬ TearsDown s cfg ↔
          ¬ (uartConnectMaxNum ≤ cfg.dst ∧
            ∃ i : Fin 8, i.val = cfg.src ∧ Enabled s (k, i))) := by
      intro k l hends
      unfold TearsDown
      refine not_congr ⟨?_, fun h => ⟨hready, h.1, k, l, hends, h.2⟩⟩
      rintro ⟨-, hdst, k', l', hends', hon⟩
      rw [hends] at hends'
      cases hends'
      exact ⟨hdst, hon⟩
    have hother : cfg.mode.ends = none → ¬ TearsDown s cfg := by
      rintro hends ⟨-, -, k, l, hsome, -⟩
      rw [hends] at hsome
      cases hsome
    obtain ⟨mode, src, dst⟩ := cfg
    cases mode with
    | uart2Uart =>
      exact (pairConnect_atomic_iff hready .uart .uart src dst).trans (hconnect _ _ rfl).symm
    | uart2Port =>
      exact (pairConnect_atomic_iff hready .uart .port src dst).trans (hconnect _ _ rfl).symm
    | port2Port =>
      exact (pairConnect_atomic_iff hready .port .port src dst).trans (hconnect _ _ rfl).symm
    | uartDisconnect => exact iff_of_true (pinConnect_atomic .uart src false) (hother rfl)
    | portDisconnect => exact iff_of_true (pinConnect_atomic .port src false) (hother rfl)
    | inval => exact iff_of_true (fun _ => rfl) (hother rfl)

/-- Uart 0, connected after reset, to a uart that does not exist: the request is refused, and uart
0 and port 0 are disabled. -/
theorem refused_tearsDown :
    (setUartConnectCfg afterReset ⟨.uart2Uart, 0, 8⟩).2 = einval ∧
      (setUartConnectCfg afterReset ⟨.uart2Uart, 0, 8⟩).1.reg .enable = 0xFEFE ∧
      ¬ Atomic afterReset ⟨.uart2Uart, 0, 8⟩ := by
  have henable : (setUartConnectCfg afterReset ⟨.uart2Uart, 0, 8⟩).1.reg .enable = 0xFEFE := by
    decide +kernel
  refine ⟨by decide +kernel, henable, fun hatomic => ?_⟩
  have hreg := congrFun (hatomic (by decide +kernel)) .enable
  rw [henable] at hreg
  exact absurd hreg (by decide)

end HiMpu.UartConnect
