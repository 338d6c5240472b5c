import Mathlib.Tactic

/-!
# The rate of the host's uart

`host_uart_get_info` of `drivers/uart_connect/uart_connect.c` reads the divisor
of the host's uart and looks the rate up in a table of the caller.  It takes the
first entry within a factor of two, and it divides by the divisor after a
truncation that may have made it zero.
-/

namespace HiMpu.HostUart

def hostUartClkRate : ℕ := 1846100
def hostUartClkRatio : ℕ := 54
def hostUartMaxBaud : ℕ := 115200
def hostUartMaxChan : ℕ := 1
def hostUartBaudListLen : ℕ := 11
def einval : ℤ := -22
def efault : ℤ := -14

inductive HostStatus
  | idle
  | working
  deriving DecidableEq

structure Connector where
  hostStatus : HostStatus
  baudReg : ℕ → ℕ

/-- What the caller's pointers lead to; `none` is a copy that fails. -/
structure UserArg where
  chan : Option ℕ
  listNull : Bool
  list : Option (List ℕ)
  writable : Bool
  length_list : ∀ l ∈ list, l.length = hostUartBaudListLen

inductive Outcome
  | divideByZero
  | error (ret : ℤ)
  | ok (uartBaud : ℕ)
  deriving DecidableEq

def hostUartMaxBaudCheck (baudTbl : List ℕ) : ℤ :=
  let constantBaud := baudTbl.tail.foldl (fun c b => if c < b then b else c) (baudTbl.headD 0)
  if hostUartMaxBaud < constantBaud then einval else 0

def hostUartFindMatchBaud (hwBaudRate : ℕ) : List ℕ → ℤ × Option ℕ
  | [] => (einval, none)
  | baud :: rest =>
    if baud = 0 then (einval, none)
    else if hwBaudRate / baud = 1 then (0, some baud)
    else hostUartFindMatchBaud hwBaudRate rest

def divisor (baudRegVal : ℕ) : ℕ := 16 * (baudRegVal / hostUartClkRatio)

def hwBaudRate (baudRegVal : ℕ) : ℕ := hostUartClkRate / divisor baudRegVal

def hostUartRate (c : Connector) (a : UserArg) (chan : ℕ) (baudTmp : List ℕ) :
    Connector × Outcome :=
  let baudRegVal := c.baudReg chan
  if baudRegVal = 0 then
    ({ c with hostStatus := if c.hostStatus = .working then .idle else c.hostStatus },
      .error einval)
  else
    let c := { c with hostStatus := .working }
    if divisor baudRegVal = 0 then (c, .divideByZero)
    else
      match hostUartFindMatchBaud (hwBaudRate baudRegVal) baudTmp with
      | (_, some baud) => if a.writable then (c, .ok baud) else (c, .error efault)
      | (ret, none) => (c, .error ret)

def hostUartGetInfo (c : Connector) (a : UserArg) : Connector × Outcome :=
  match a.chan with
  | none => (c, .error efault)
  | some chan =>
    if a.listNull then (c, .error efault)
    else
      match a.list with
      | none => (c, .error efault)
      | some baudTmp =>
        if hostUartMaxChan < chan then (c, .error einval)
        else if hostUartMaxBaudCheck baudTmp ≠ 0 then (c, .error einval)
        else hostUartRate c a chan baudTmp

def Matches (rate baud : ℕ) : Prop := baud ≤ rate ∧ rate < 2 * baud

instance (rate baud : ℕ) : Decidable (Matches rate baud) := inferInstanceAs (Decidable (_ ∧ _))

structure FirstMatch (rate : ℕ) (table pre post : List ℕ) (baud : ℕ) : Prop where
  split : table = pre ++ baud :: post
  hit : Matches rate baud
  before : ∀ b ∈ pre, b ≠ 0 ∧ ¬ Matches rate b

def LargestFirst (rate : ℕ) (table : List ℕ) : Prop :=
  ∀ pre post baud, FirstMatch rate table pre post baud →
    ∀ b ∈ post, Matches rate b → b ≤ baud

structure LargestMatch (rate : ℕ) (table : List ℕ) (baud : ℕ) : Prop where
  mem : baud ∈ table
  hit : Matches rate baud
  largest : ∀ b ∈ table, Matches rate b → b ≤ baud

section Matching

variable {rate baud : ℕ} {table pre post : List ℕ}

theorem matches_iff (hpos : baud ≠ 0) : rate / baud = 1 ↔ Matches rate baud := by
  rw [Nat.div_eq_iff (Nat.pos_of_ne_zero hpos)]
  unfold Matches
  omega

theorem Matches.ne_zero (h : Matches rate baud) : baud ≠ 0 := by
  obtain ⟨-, hlt⟩ := h
  omega

theorem findMatch_iff :
    (hostUartFindMatchBaud rate table).2 = some baud ↔
      ∃ pre post, FirstMatch rate table pre post baud := by
  induction table with
  | nil =>
    refine iff_of_false (fun h => nomatch h) ?_
    rintro ⟨pre, post, h⟩
    have hlen := congrArg List.length h.split
    simp at hlen
  | cons b rest ih =>
    unfold hostUartFindMatchBaud
    by_cases hzero : b = 0
    · rw [if_pos hzero]
      refine iff_of_false (fun h => nomatch h) ?_
      rintro ⟨pre, post, h⟩
      cases pre with
      | nil =>
        obtain ⟨rfl, -⟩ := List.cons.inj h.split
        exact h.hit.ne_zero hzero
      | cons a pre =>
        obtain ⟨rfl, -⟩ := List.cons.inj h.split
        exact (h.before b List.mem_cons_self).1 hzero
    · rw [if_neg hzero]
      by_cases hhit : rate / b = 1
      · rw [if_pos hhit]
        have hmatch := (matches_iff hzero).mp hhit
        constructor
        · intro h
          obtain rfl : b = baud := Option.some.inj h
          exact ⟨[], rest, rfl, hmatch, fun _ h => absurd h List.not_mem_nil⟩
        · rintro ⟨pre, post, h⟩
          cases pre with
          | nil =>
            obtain ⟨rfl, -⟩ := List.cons.inj h.split
            rfl
          | cons a pre =>
            obtain ⟨rfl, -⟩ := List.cons.inj h.split
            exact absurd hmatch (h.before b List.mem_cons_self).2
      · rw [if_neg hhit, ih]
        have hmiss : ¬ Matches rate b := fun h => hhit ((matches_iff hzero).mpr h)
        constructor
        · rintro ⟨pre, post, h⟩
          refine ⟨b :: pre, post, by rw [h.split]; rfl, h.hit, fun x hx => ?_⟩
          rcases List.mem_cons.mp hx with rfl | hx
          · exact ⟨hzero, hmiss⟩
          · exact h.before x hx
        · rintro ⟨pre, post, h⟩
          cases pre with
          | nil =>
            obtain ⟨rfl, -⟩ := List.cons.inj h.split
            exact absurd h.hit hmiss
          | cons a pre =>
            obtain ⟨rfl, hrest⟩ := List.cons.inj h.split
            exact ⟨pre, post, hrest, h.hit, fun x hx =>
              h.before x (List.mem_cons_of_mem _ hx)⟩

theorem FirstMatch.largest_iff (h : FirstMatch rate table pre post baud) :
    LargestMatch rate table baud ↔ ∀ b ∈ post, Matches rate b → b ≤ baud := by
  have hmem : ∀ b, b ∈ table ↔ b ∈ pre ∨ b = baud ∨ b ∈ post := by
    intro b
    rw [h.split, List.mem_append, List.mem_cons]
  constructor
  · intro hlargest b hb
    exact hlargest.largest b ((hmem b).mpr (Or.inr (Or.inr hb)))
  · intro hpost
    refine ⟨(hmem baud).mpr (Or.inr (Or.inl rfl)), h.hit, fun b hb hmatch => ?_⟩
    rcases (hmem b).mp hb with hb | rfl | hb
    · exact absurd hmatch (h.before b hb).2
    · exact le_rfl
    · exact hpost b hb hmatch

theorem largestFirst_iff :
    LargestFirst rate table ↔
      ∀ baud, (hostUartFindMatchBaud rate table).2 = some baud → LargestMatch rate table baud := by
  constructor
  · intro hfirst baud hfound
    obtain ⟨pre, post, h⟩ := findMatch_iff.mp hfound
    exact h.largest_iff.mpr (hfirst pre post baud h)
  · intro hall pre post baud h
    exact h.largest_iff.mp (hall baud (findMatch_iff.mpr ⟨pre, post, h⟩))

end Matching

structure Accepted (a : UserArg) (chan : ℕ) (baudTmp : List ℕ) : Prop where
  chan_eq : a.chan = some chan
  notNull : a.listNull = false
  list_eq : a.list = some baudTmp
  chan_le : chan ≤ hostUartMaxChan
  max_ok : hostUartMaxBaudCheck baudTmp = 0

/-- No division by zero, and on success the largest matching entry. -/
structure Right (c : Connector) (a : UserArg) : Prop where
  divides : (hostUartGetInfo c a).2 ≠ .divideByZero
  largest : ∀ chan baudTmp baud, Accepted a chan baudTmp → (hostUartGetInfo c a).2 = .ok baud →
    LargestMatch (hwBaudRate (c.baudReg chan)) baudTmp baud

section Call

variable {c : Connector} {a : UserArg} {chan : ℕ} {baudTmp : List ℕ}

theorem Accepted.getInfo_eq (h : Accepted a chan baudTmp) :
    hostUartGetInfo c a = hostUartRate c a chan baudTmp := by
  unfold hostUartGetInfo
  simp only [h.chan_eq, h.notNull, h.list_eq]
  rw [if_neg Bool.false_ne_true, if_neg (Nat.not_lt.mpr h.chan_le), if_neg (not_not_intro h.max_ok)]

theorem getInfo_of_not_accepted (hnot : ∀ chan baudTmp, ¬ Accepted a chan baudTmp) :
    ∃ ret, (hostUartGetInfo c a).2 = .error ret := by
  unfold hostUartGetInfo
  cases hchan : a.chan with
  | none => exact ⟨efault, rfl⟩
  | some chan =>
    cases hnull : a.listNull with
    | true => exact ⟨efault, rfl⟩
    | false =>
      cases hlist : a.list with
      | none => exact ⟨efault, rfl⟩
      | some baudTmp =>
        by_cases hmax : hostUartMaxChan < chan
        · simp only [Bool.false_eq_true, if_false, if_pos hmax]
          exact ⟨einval, rfl⟩
        · by_cases hcheck : hostUartMaxBaudCheck baudTmp = 0
          · exact absurd ⟨hchan, hnull, hlist, Nat.not_lt.mp hmax, hcheck⟩ (hnot _ _)
          · simp only [Bool.false_eq_true, if_false, if_neg hmax, ne_eq, hcheck,
              not_false_eq_true, if_true]
            exact ⟨einval, rfl⟩

theorem divisor_eq_zero_iff (r : ℕ) : divisor r = 0 ↔ r < hostUartClkRatio := by
  unfold divisor hostUartClkRatio
  omega

theorem rate_divides_iff :
    (hostUartRate c a chan baudTmp).2 ≠ .divideByZero ↔
      c.baudReg chan = 0 ∨ hostUartClkRatio ≤ c.baudReg chan := by
  unfold hostUartRate
  by_cases hzero : c.baudReg chan = 0
  · simp only [if_pos hzero]
    exact iff_of_true (fun h => nomatch h) (Or.inl hzero)
  · simp only [if_neg hzero]
    by_cases hdiv : divisor (c.baudReg chan) = 0
    · simp only [if_pos hdiv]
      have hlt := (divisor_eq_zero_iff _).mp hdiv
      exact iff_of_false (fun h => h rfl) (by omega)
    · simp only [if_neg hdiv]
      have hle := Nat.not_lt.mp (mt (divisor_eq_zero_iff _).mpr hdiv)
      refine iff_of_true ?_ (Or.inr hle)
      split
      · split <;> exact fun h => nomatch h
      · exact fun h => nomatch h

theorem rate_ok_iff {baud : ℕ} :
    (hostUartRate c a chan baudTmp).2 = .ok baud ↔
      hostUartClkRatio ≤ c.baudReg chan ∧ a.writable = true ∧
        (hostUartFindMatchBaud (hwBaudRate (c.baudReg chan)) baudTmp).2 = some baud := by
  unfold hostUartRate
  by_cases hzero : c.baudReg chan = 0
  · simp only [if_pos hzero]
    refine iff_of_false (fun h => nomatch h) fun h => ?_
    have hle := h.1
    unfold hostUartClkRatio at hle
    omega
  · simp only [if_neg hzero]
    by_cases hdiv : divisor (c.baudReg chan) = 0
    · simp only [if_pos hdiv]
      have hlt := (divisor_eq_zero_iff _).mp hdiv
      exact iff_of_false (fun h => nomatch h) fun h => absurd h.1 (Nat.not_le.mpr hlt)
    · simp only [if_neg hdiv]
      have hle := Nat.not_lt.mp (mt (divisor_eq_zero_iff _).mpr hdiv)
      rcases hfind : hostUartFindMatchBaud (hwBaudRate (c.baudReg chan)) baudTmp with ⟨ret, found⟩
      cases found with
      | none => simp
      | some b => cases a.writable <;> simp [hle]

end Call

/-- The call is right exactly when the register is zero or holds a whole divisor, and the table has
the largest of the matching entries first. -/
theorem getInfo_right_iff (c : Connector) (a : UserArg) :
    Right c a ↔ ∀ chan baudTmp, Accepted a chan baudTmp →
      c.baudReg chan = 0 ∨ hostUartClkRatio ≤ c.baudReg chan ∧
        (a.writable = true → LargestFirst (hwBaudRate (c.baudReg chan)) baudTmp) := by
  constructor
  · intro hright chan baudTmp hacc
    have hdivides := hright.divides
    rw [hacc.getInfo_eq, rate_divides_iff] at hdivides
    refine hdivides.imp_right fun hle => ⟨hle, fun hwritable => ?_⟩
    refine largestFirst_iff.mpr fun baud hfound => ?_
    refine hright.largest chan baudTmp baud hacc ?_
    rw [hacc.getInfo_eq]
    exact rate_ok_iff.mpr ⟨hle, hwritable, hfound⟩
  · intro hall
    constructor
    · by_cases hsome : ∃ chan baudTmp, Accepted a chan baudTmp
      · obtain ⟨chan, baudTmp, hacc⟩ := hsome
        rw [hacc.getInfo_eq, rate_divides_iff]
        exact (hall chan baudTmp hacc).imp_right And.left
      · obtain ⟨ret, hret⟩ := getInfo_of_not_accepted (c := c) fun chan baudTmp h =>
          hsome ⟨chan, baudTmp, h⟩
        rw [hret]
        exact fun h => nomatch h
    · intro chan baudTmp baud hacc hok
      rw [hacc.getInfo_eq] at hok
      obtain ⟨hle, hwritable, hfound⟩ := rate_ok_iff.mp hok
      have hpos : c.baudReg chan ≠ 0 := by
        unfold hostUartClkRatio at hle
        omega
      exact largestFirst_iff.mp (((hall chan baudTmp hacc).resolve_left hpos).2 hwritable) baud
        hfound

def risingRates : List ℕ :=
  [1200, 2400, 4800, 9600, 14400, 19200, 28800, 38400, 57600, 76800, 115200]

def risingArg : UserArg where
  chan := some 0
  listNull := false
  list := some risingRates
  writable := true
  length_list := by
    intro l hl
    obtain rfl : risingRates = l := Option.some.inj hl
    rfl

/-- At 57690 baud the rising table yields 38400, and a register value of 1 is divided away. -/
theorem risingArg_wrong :
    (hostUartGetInfo ⟨.idle, fun _ => 108⟩ risingArg).2 = .ok 38400 ∧
      ¬ Right ⟨.idle, fun _ => 108⟩ risingArg ∧
      (hostUartGetInfo ⟨.idle, fun _ => 1⟩ risingArg).2 = .divideByZero ∧
      ¬ Right ⟨.idle, fun _ => 1⟩ risingArg := by
  have hlow : (hostUartGetInfo ⟨.idle, fun _ => 108⟩ risingArg).2 = .ok 38400 := by decide +kernel
  have hzero : (hostUartGetInfo ⟨.idle, fun _ => 1⟩ risingArg).2 = .divideByZero := by
    decide +kernel
  have hacc : Accepted risingArg 0 risingRates :=
    ⟨rfl, rfl, rfl, Nat.zero_le _, by decide +kernel⟩
  refine ⟨hlow, fun hright => ?_, hzero, fun hright => hright.divides hzero⟩
  have hlargest := (hright.largest 0 risingRates 38400 hacc hlow).largest 57600
    (by decide) (by decide +kernel)
  exact absurd hlargest (by decide)

end HiMpu.HostUart
