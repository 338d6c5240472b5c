import HiMpu.BmTypes
import HiMpu.TransitionSystem

/-!
# Endpoints of the mixed-criticality channel

`baremetal/mcs/mcs.c`: five channel slots, each with an rpmsg endpoint.  A slot
is marked before the library call that may still fail, and it is found again by
comparing the endpoint's name.  The two library functions follow
`lib/rpmsg/rpmsg.c` of open-amp; the outcome of the announcement that
`rpmsg_create_ept` sends is an input of each call.
-/

namespace HiMpu.Mcs

def eptNum : ℕ := 5
def channelFree : ℤ := 0
def channelUsed : ℤ := 1
def rpmsgNameSize : ℕ := 32
def rpmsgAddrAny : ℕ := 0xFFFFFFFF
def rpmsgErrParam : ℤ := -2003

structure CString where
  bytes : List UInt8
  noNul : 0 ∉ bytes
deriving DecidableEq

structure RpmsgEndpoint where
  name : List UInt8
  rdev : ℕ
  addr : ℕ
  destAddr : ℕ
  cb : ℕ
deriving DecidableEq

structure McsInfo where
  ept : RpmsgEndpoint
  channel : ℤ
deriving DecidableEq

def McsInfo.zero : McsInfo := ⟨⟨List.replicate rpmsgNameSize 0, 0, 0, 0, 0⟩, channelFree⟩

/-- `g_mcs_data`; slot 0 is never handed out. -/
abbrev McsData := ℕ → McsInfo

structure Device where
  rdev : ℕ
  supportNs : Bool

/-- `strncpy` into the name field: cut at its size and padded with zeros. -/
def strncpyName (name : CString) : List UInt8 :=
  name.bytes.take rpmsgNameSize ++ List.replicate (rpmsgNameSize - name.bytes.length) 0

def pointerBytes (p : ℕ) : List UInt8 :=
  (List.range 8).map fun k => UInt8.ofNat (p / 256 ^ k)

/-- What `strcmp` reads at the name field.  A name that fills the field has no
terminator, and the comparison runs into the pointer behind it. -/
def endpointName (ept : RpmsgEndpoint) : List UInt8 :=
  (ept.name ++ pointerBytes ept.rdev).takeWhile (· ≠ 0)

def rpmsgRegisterEndpoint (D : Device) (name : CString) (src dest cb : ℕ) : RpmsgEndpoint :=
  ⟨strncpyName name, D.rdev, src, dest, cb⟩

def rpmsgUnregisterEndpoint (ept : RpmsgEndpoint) : RpmsgEndpoint := { ept with rdev := 0 }

/-- `rpmsg_create_ept` for a predefined address, which is not looked up in the
address bitmap.  `nsStatus` is the result of `rpmsg_send_ns_message`. -/
def rpmsgCreateEpt (D : Device) (ept : RpmsgEndpoint) (name : CString) (src dest cb : ℕ)
    (nsStatus : ℤ) : RpmsgEndpoint × ℤ :=
  if D.rdev = 0 ∨ cb = 0 then (ept, rpmsgErrParam)
  else
    let ept := rpmsgRegisterEndpoint D name src dest cb
    let status := if name.bytes ≠ [] ∧ D.supportNs ∧ dest = rpmsgAddrAny then nsStatus else 0
    if status ≠ 0 then (rpmsgUnregisterEndpoint ept, status) else (ept, status)

def rpmsgDestroyEpt (ept : RpmsgEndpoint) : RpmsgEndpoint :=
  if ept.rdev = 0 then ept else rpmsgUnregisterEndpoint ept

def slots : List ℕ := List.range' 1 eptNum

def getRpmsgEndpoint (g : McsData) (name : CString) : Option ℕ :=
  slots.find? fun i => endpointName (g i).ept = name.bytes

def mcsFindFreeChannel (g : McsData) : Option (ℕ × McsData) :=
  (slots.find? fun i => (g i).channel = channelFree).map fun i =>
    (i, Function.update g i { g i with channel := channelUsed })

def bmMcsCreateEpt (D : Device) (g : McsData) (epName : Option CString) (cb : ℕ)
    (nsStatus : ℤ) : McsData × ℤ :=
  match epName with
  | none => (g, bmFail)
  | some name =>
    if cb = 0 then (g, bmFail)
    else
      match mcsFindFreeChannel g with
      | none => (g, bmFail)
      | some (channel, g) =>
        let created :=
          rpmsgCreateEpt D (g channel).ept name channel rpmsgAddrAny cb nsStatus
        let g := Function.update g channel { g channel with ept := created.1 }
        if created.2 ≠ 0 then (g, bmFail) else (g, bmOk)

def bmMcsDestroyEpt (g : McsData) (epName : Option CString) : McsData × ℤ :=
  match epName with
  | none => (g, bmFail)
  | some name =>
    match getRpmsgEndpoint g name with
    | none => (g, bmFail)
    | some i =>
      -- `addr` is unsigned: the test of the source never holds
      if eptNum < (g i).ept.addr ∧ (g i).ept.addr ≤ 0 then (g, bmFail)
      else
        let g := Function.update g i { g i with ept := rpmsgDestroyEpt (g i).ept }
        (Function.update g (g i).ept.addr McsInfo.zero, bmOk)

inductive Call where
  | create (epName : Option CString) (cb : ℕ) (nsStatus : ℤ)
  | destroy (epName : Option CString)

/-- The driver, and the endpoints created successfully and not yet destroyed:
the name that each slot was handed out for. -/
structure Run where
  data : McsData
  live : ℕ → Option CString

def Run.liveSlot (r : Run) (name : CString) : Option ℕ :=
  slots.find? fun i => r.live i = some name

def Run.created (r : Run) (epName : Option CString) (ret : ℤ) : ℕ → Option CString :=
  match mcsFindFreeChannel r.data with
  | some (channel, _) => if ret = bmOk then Function.update r.live channel epName else r.live
  | none => r.live

def Run.destroyed (r : Run) (epName : Option CString) (ret : ℤ) : ℕ → Option CString :=
  match epName.bind r.liveSlot with
  | some i => if ret = bmOk then Function.update r.live i none else r.live
  | none => r.live

def Run.result (D : Device) (r : Run) : Call → McsData × ℤ
  | .create epName cb nsStatus => bmMcsCreateEpt D r.data epName cb nsStatus
  | .destroy epName => bmMcsDestroyEpt r.data epName

def Run.call (D : Device) (r : Run) (c : Call) : Run where
  data := (r.result D c).1
  live :=
    match c with
    | .create epName _ _ => r.created epName (r.result D c).2
    | .destroy epName => r.destroyed epName (r.result D c).2

def mcsSystem (D : Device) : TransitionSystem Run Call where
  init r := (∀ i, r.data i = McsInfo.zero) ∧ ∀ i, r.live i = none
  step r c r' := r' = r.call D c

def Conserved (r : Run) : Prop :=
  ∀ i ∈ slots, (r.data i).channel = channelUsed ↔ ∃ name, r.live i = some name

/-- What a call must do.  A create that fails gives its slot back and one that
succeeds takes one free slot.  A destroy frees one slot, of a live endpoint with
the name, and fails without one. -/
def CallServed (D : Device) (r : Run) : Call → Prop
  | .create epName cb nsStatus =>
    let res := bmMcsCreateEpt D r.data epName cb nsStatus
    (res.2 ≠ bmOk ∧ ∀ i ∈ slots, (res.1 i).channel = (r.data i).channel) ∨
      (res.2 = bmOk ∧ ∃ c ∈ slots, (r.data c).channel = channelFree ∧
        (res.1 c).channel = channelUsed ∧ ∀ i, i ≠ c → res.1 i = r.data i)
  | .destroy epName =>
    let res := bmMcsDestroyEpt r.data epName
    (res.2 = bmOk ∧ ∃ i ∈ slots, (∃ name, epName = some name ∧ r.live i = some name) ∧
        (res.1 i).channel = channelFree ∧ ∀ j, j ≠ i → res.1 j = r.data j) ∨
      ((∀ i ∈ slots, ∀ name, epName = some name → r.live i ≠ some name) ∧
        res.2 = bmFail ∧ res.1 = r.data)

/-- A create that reaches the library finds it successful and its name fits the
field.  The empty name, which an unused slot carries too, is destroyed only
where no unused slot comes before a live endpoint of that name. -/
def Plain (D : Device) (r : Run) : Call → Prop
  | .create epName cb nsStatus =>
    ∀ name, epName = some name → cb ≠ 0 → (∃ i ∈ slots, (r.data i).channel = channelFree) →
      name.bytes.length < rpmsgNameSize ∧ D.rdev ≠ 0 ∧
        (name.bytes = [] ∨ D.supportNs = false ∨ nsStatus = 0)
  | .destroy epName =>
    ∀ name, epName = some name → name.bytes = [] →
      ∀ i ∈ slots, (r.data i).channel = channelFree →
        ∃ j ∈ slots, j < i ∧ r.live j = some name

theorem endpointName_zero : endpointName McsInfo.zero.ept = [] := by decide

theorem endpointName_register (D : Device) (name : CString) (src dest cb : ℕ)
    (hlen : name.bytes.length < rpmsgNameSize) :
    endpointName (rpmsgRegisterEndpoint D name src dest cb) = name.bytes := by
  unfold endpointName rpmsgRegisterEndpoint strncpyName
  simp only
  rw [List.take_of_length_le (le_of_lt hlen)]
  obtain ⟨k, hk⟩ : ∃ k, rpmsgNameSize - name.bytes.length = k + 1 :=
    ⟨rpmsgNameSize - name.bytes.length - 1, by omega⟩
  rw [hk, List.replicate_succ, List.append_assoc, List.takeWhile_append_of_pos]
  · simp
  · intro b hb
    have hne : b ≠ 0 := fun hzero => name.noNul (hzero ▸ hb)
    simpa using hne

theorem rpmsgDestroyEpt_addr (ept : RpmsgEndpoint) : (rpmsgDestroyEpt ept).addr = ept.addr := by
  unfold rpmsgDestroyEpt rpmsgUnregisterEndpoint
  split <;> rfl

/-- Each live endpoint sits in a used slot under its name and with the slot's
number as its address; every other slot is clear. -/
structure Owned (r : Run) : Prop where
  unused : ∀ i ∈ slots, r.live i = none → r.data i = McsInfo.zero
  used : ∀ i ∈ slots, ∀ name, r.live i = some name →
    (r.data i).channel = channelUsed ∧ endpointName (r.data i).ept = name.bytes ∧
      (r.data i).ept.addr = i

namespace Owned

variable {D : Device} {r : Run}

theorem conserved (how : Owned r) : Conserved r := by
  intro i hi
  constructor
  · intro hused
    cases hlive : r.live i with
    | none =>
      rw [how.unused i hi hlive] at hused
      cases hused
    | some name => exact ⟨name, rfl⟩
  · rintro ⟨name, hlive⟩
    exact (how.used i hi name hlive).1

theorem free_iff (how : Owned r) {i : ℕ} (hi : i ∈ slots) :
    (r.data i).channel = channelFree ↔ r.live i = none := by
  constructor
  · intro hfree
    cases hlive : r.live i with
    | none => rfl
    | some name =>
      rw [(how.used i hi name hlive).1] at hfree
      cases hfree
  · intro hlive
    rw [how.unused i hi hlive]
    rfl

theorem getRpmsgEndpoint_eq (how : Owned r) {name : CString}
    (hplain : Plain D r (.destroy (some name))) :
    getRpmsgEndpoint r.data name = r.liveSlot name := by
  have hmatch : ∀ i ∈ slots, r.live i = some name → endpointName (r.data i).ept = name.bytes :=
    fun i hi hlive => (how.used i hi name hlive).2.1
  -- a slot that carries the name is live under it, or is an unused one before which one is
  have hcarry : ∀ i ∈ slots, endpointName (r.data i).ept = name.bytes →
      r.live i = some name ∨ ∃ j ∈ slots, j < i ∧ r.live j = some name := by
    intro i hi hname
    cases hlive : r.live i with
    | none =>
      rw [how.unused i hi hlive, endpointName_zero] at hname
      exact Or.inr (hplain name rfl hname.symm i hi ((how.free_iff hi).mpr hlive))
    | some other =>
      rw [(how.used i hi other hlive).2.1] at hname
      left
      cases other
      cases name
      simp_all
  unfold Run.liveSlot getRpmsgEndpoint
  cases hfind : slots.find? fun i => r.live i = some name with
  | none =>
    rw [List.find?_eq_none] at hfind ⊢
    intro i hi hname
    rw [decide_eq_true_eq] at hname
    rcases hcarry i hi hname with hlive | ⟨j, hj, -, hlive⟩
    · exact hfind i hi (by simpa using hlive)
    · exact hfind j hj (by simpa using hlive)
  | some i =>
    unfold slots at hfind ⊢
    rw [List.find?_range'_eq_some] at hfind ⊢
    obtain ⟨hlive, hi, hfirst⟩ := hfind
    rw [decide_eq_true_eq] at hlive
    refine ⟨by simpa using hmatch i hi hlive, hi, ?_⟩
    intro j hj hji
    have hjmem : j ∈ slots := by
      unfold slots
      rw [List.mem_range'_1] at hi ⊢
      omega
    have hnone : ∀ k ∈ slots, k < i → r.live k ≠ some name := by
      intro k hk hki
      have hk' := hk
      unfold slots at hk'
      rw [List.mem_range'_1] at hk'
      simpa using hfirst k hk'.1 hki
    by_contra hname
    rw [Bool.not_eq_true, Bool.not_eq_false', decide_eq_true_eq] at hname
    rcases hcarry j hjmem hname with hlive' | ⟨k, hk, hkj, hlive'⟩
    · exact hnone j hjmem hji hlive'
    · exact hnone k hk (by omega) hlive'

end Owned

theorem create_cases {D : Device} {r : Run} {epName : Option CString} {cb : ℕ} {nsStatus : ℤ}
    (hplain : Plain D r (.create epName cb nsStatus)) :
    bmMcsCreateEpt D r.data epName cb nsStatus = (r.data, bmFail) ∨
      ∃ name c, epName = some name ∧ c ∈ slots ∧ (r.data c).channel = channelFree ∧
        mcsFindFreeChannel r.data =
          some (c, Function.update r.data c { r.data c with channel := channelUsed }) ∧
        name.bytes.length < rpmsgNameSize ∧
        bmMcsCreateEpt D r.data epName cb nsStatus =
          (Function.update r.data c
            ⟨rpmsgRegisterEndpoint D name c rpmsgAddrAny cb, channelUsed⟩, bmOk) := by
  unfold bmMcsCreateEpt
  cases epName with
  | none => exact Or.inl rfl
  | some name =>
    simp only
    by_cases hcb : cb = 0
    · rw [if_pos hcb]
      exact Or.inl rfl
    · rw [if_neg hcb]
      unfold mcsFindFreeChannel
      cases hfind : slots.find? fun i => (r.data i).channel = channelFree with
      | none => exact Or.inl rfl
      | some c =>
        have hc : c ∈ slots := List.mem_of_find?_eq_some hfind
        have hfree : (r.data c).channel = channelFree := by
          simpa using List.find?_some hfind
        obtain ⟨hlen, hrdev, hns⟩ := hplain name rfl hcb ⟨c, hc, hfree⟩
        refine Or.inr ⟨name, c, rfl, hc, hfree, rfl, hlen, ?_⟩
        have hlib : ∀ ept, rpmsgCreateEpt D ept name c rpmsgAddrAny cb nsStatus =
            (rpmsgRegisterEndpoint D name c rpmsgAddrAny cb, 0) := by
          intro ept
          unfold rpmsgCreateEpt
          rw [if_neg (by tauto)]
          rcases hns with hns | hns | hns <;> simp [hns]
        simp [hlib]

theorem destroy_cases {D : Device} {r : Run} (how : Owned r) {epName : Option CString}
    (hplain : Plain D r (.destroy epName)) :
    (epName.bind r.liveSlot = none ∧ bmMcsDestroyEpt r.data epName = (r.data, bmFail)) ∨
      ∃ name i, epName = some name ∧ r.liveSlot name = some i ∧ i ∈ slots ∧
        r.live i = some name ∧
        bmMcsDestroyEpt r.data epName = (Function.update r.data i McsInfo.zero, bmOk) := by
  cases epName with
  | none => exact Or.inl ⟨rfl, rfl⟩
  | some name =>
    have hget := how.getRpmsgEndpoint_eq hplain
    simp only [bmMcsDestroyEpt, hget, Option.bind_some]
    cases hslot : r.liveSlot name with
    | none => exact Or.inl ⟨rfl, rfl⟩
    | some i =>
      have hi : i ∈ slots := List.mem_of_find?_eq_some hslot
      have hlive : r.live i = some name := by simpa using List.find?_some hslot
      have haddr := (how.used i hi name hlive).2.2
      refine Or.inr ⟨name, i, rfl, hslot, hi, hlive, ?_⟩
      have hbound : ¬ (eptNum < (r.data i).ept.addr ∧ (r.data i).ept.addr ≤ 0) := by omega
      simp only
      rw [if_neg hbound, Function.update_self, rpmsgDestroyEpt_addr, haddr,
        Function.update_idem]

theorem Owned.call {D : Device} {r : Run} (how : Owned r) {c : Call} (hplain : Plain D r c) :
    Owned (r.call D c) := by
  cases c with
  | create epName cb nsStatus =>
    rcases create_cases hplain with hfail | ⟨name, c, rfl, hc, hfree, hfind, hlen, hok⟩
    · have hsame : r.call D (.create epName cb nsStatus) = r := by
        simp only [Run.call, Run.result, Run.created, hfail]
        cases mcsFindFreeChannel r.data with
        | none => rfl
        | some p => rfl
      rw [hsame]
      exact how
    · have hnext : r.call D (.create (some name) cb nsStatus) =
          ⟨Function.update r.data c
            ⟨rpmsgRegisterEndpoint D name c rpmsgAddrAny cb, channelUsed⟩,
            Function.update r.live c (some name)⟩ := by
        simp only [Run.call, Run.result, Run.created, hok, hfind, if_true]
      rw [hnext]
      constructor
      · intro i hi hnone
        by_cases hic : i = c
        · subst hic
          simp at hnone
        · simp only [Function.update_of_ne hic] at hnone ⊢
          exact how.unused i hi hnone
      · intro i hi other hsome
        by_cases hic : i = c
        · subst hic
          simp only [Function.update_self, Option.some.injEq] at hsome ⊢
          subst hsome
          exact ⟨trivial, endpointName_register D name i _ cb hlen, rfl⟩
        · simp only [Function.update_of_ne hic] at hsome ⊢
          exact how.used i hi other hsome
  | destroy epName =>
    rcases destroy_cases how hplain with ⟨hslot, hfail⟩ | ⟨name, i, rfl, hslot, hi, hlive, hok⟩
    · have hsame : r.call D (.destroy epName) = r := by
        simp only [Run.call, Run.result, Run.destroyed, hfail, hslot]
      rw [hsame]
      exact how
    · have hnext : r.call D (.destroy (some name)) =
          ⟨Function.update r.data i McsInfo.zero, Function.update r.live i none⟩ := by
        simp only [Run.call, Run.result, Run.destroyed, hok, Option.bind_some, hslot, if_true]
      rw [hnext]
      constructor
      · intro j hj hnone
        by_cases hji : j = i
        · subst hji
          simp
        · simp only [Function.update_of_ne hji] at hnone ⊢
          exact how.unused j hj hnone
      · intro j hj other hsome
        by_cases hji : j = i
        · subst hji
          simp at hsome
        · simp only [Function.update_of_ne hji] at hsome ⊢
          exact how.used j hj other hsome

theorem owned_of_reachable {D : Device} {r : Run}
    (hreach : ((mcsSystem D).restrict (Plain D)).Reachable r) : Owned r := by
  apply hreach.invariant
  · rintro r ⟨hzero, hnone⟩
    exact ⟨fun i _ _ => hzero i, fun i _ name hsome => by simp [hnone i] at hsome⟩
  · rintro r c r' - how ⟨hplain, rfl⟩
    exact how.call hplain

theorem callServed_of_owned {D : Device} {r : Run} (how : Owned r) {c : Call}
    (hplain : Plain D r c) : CallServed D r c := by
  cases c with
  | create epName cb nsStatus =>
    simp only [CallServed]
    rcases create_cases hplain with hfail | ⟨name, c, -, hc, hfree, -, -, hok⟩
    · rw [hfail]
      exact Or.inl ⟨show bmFail ≠ bmOk by decide, fun i _ => rfl⟩
    · rw [hok]
      refine Or.inr ⟨rfl, c, hc, hfree, ?_, ?_⟩
      · simp
      · intro i hic
        exact Function.update_of_ne hic _ _
  | destroy epName =>
    simp only [CallServed]
    rcases destroy_cases how hplain with ⟨hslot, hfail⟩ | ⟨name, i, rfl, -, hi, hlive, hok⟩
    · rw [hfail]
      refine Or.inr ⟨?_, rfl, rfl⟩
      rintro i hi name rfl hlive
      have hnone := List.find?_eq_none.mp hslot i hi
      simp [hlive] at hnone
    · rw [hok]
      refine Or.inl ⟨rfl, i, hi, ⟨name, rfl, hlive⟩, ?_, ?_⟩
      · simp [McsInfo.zero]
      · intro j hji
        exact Function.update_of_ne hji _ _

/-- In every run of plain calls the used slots are those of the live endpoints,
and every further plain call does what it must. -/
theorem endpoints_conserved {D : Device} {r : Run}
    (hreach : ((mcsSystem D).restrict (Plain D)).Reachable r) :
    Conserved r ∧ ∀ c, Plain D r c → CallServed D r c := by
  have how := owned_of_reachable hreach
  exact ⟨how.conserved, fun c hplain => callServed_of_owned how hplain⟩

def nsDevice : Device := ⟨0x1000, true⟩

def clearRun : Run := ⟨fun _ => McsInfo.zero, fun _ => none⟩

def nameA : CString := ⟨[97], by decide⟩
def emptyName : CString := ⟨[], by decide⟩

def runWithA : Run := clearRun.call nsDevice (.create (some nameA) 1 0)

theorem runWithA_conserved :
    (runWithA.data 1).channel = channelUsed ∧ Conserved runWithA ∧
      CallServed nsDevice runWithA (.destroy (some nameA)) := by
  have hstart : Plain nsDevice clearRun (.create (some nameA) 1 0) := by
    rintro name hname - -
    cases hname
    exact ⟨by decide, by decide, Or.inr (Or.inr rfl)⟩
  have hreach : ((mcsSystem nsDevice).restrict (Plain nsDevice)).Reachable runWithA :=
    TransitionSystem.Reachable.step (a := .create (some nameA) 1 0)
      (TransitionSystem.Reachable.init (s := clearRun) ⟨fun _ => rfl, fun _ => rfl⟩)
      ⟨hstart, rfl⟩
  have hnext : Plain nsDevice runWithA (.destroy (some nameA)) := by
    intro name hname hempty
    cases hname
    cases hempty
  exact ⟨by decide +kernel, (endpoints_conserved hreach).1,
    (endpoints_conserved hreach).2 _ hnext⟩

/-- A create whose announcement fails returns an error and keeps its slot; and
the empty name, never created, is accepted by destroy. -/
theorem failed_create_keeps_slot :
    (mcsSystem nsDevice).Reachable (clearRun.call nsDevice (.create (some nameA) 1 (-1))) ∧
      (bmMcsCreateEpt nsDevice clearRun.data (some nameA) 1 (-1)).2 = bmFail ∧
      ¬ Conserved (clearRun.call nsDevice (.create (some nameA) 1 (-1))) ∧
      (bmMcsDestroyEpt clearRun.data (some emptyName)).2 = bmOk := by
  have hstart : (mcsSystem nsDevice).Reachable clearRun :=
    TransitionSystem.Reachable.init ⟨fun _ => rfl, fun _ => rfl⟩
  refine ⟨hstart.step (a := .create (some nameA) 1 (-1)) rfl, by decide +kernel, ?_,
    by decide +kernel⟩
  intro hcons
  have hused : ((clearRun.call nsDevice (.create (some nameA) 1 (-1))).data 1).channel =
      channelUsed := by decide +kernel
  have hnone : (clearRun.call nsDevice (.create (some nameA) 1 (-1))).live 1 = none := by
    decide +kernel
  obtain ⟨name, hsome⟩ := (hcons 1 (by decide)).mp hused
  rw [hnone] at hsome
  cases hsome

end HiMpu.Mcs
