import HiMpu.CallProgram
import HiMpu.Mdio
import HiMpu.TransitionSystem

/-!
# Paged accesses to a PHY

`marvel_phy.c` and `reltek_phy.c`: a read or a write selects the page of its register by
one MDIO access and reaches the register by another.  The driver of the 88E1512 has a
semaphore around the two.  An operation that updates a register reads it by one call and
writes it by another, in all of the drivers.
-/

namespace HiMpu.PagedPhy

/-- What a driver writes to select a page, and whether it has `g_sem_page`. -/
structure Bus where
  pageReg : ℕ
  pageMask : ℕ
  lock : Bool

/-- A read of a register, `upd` when it is to be updated; a write of a register, `upd` when the
value comes from the read before. -/
inductive Call where
  | read (regNum page : ℕ) (upd : Bool)
  | write (regNum page value : ℕ) (upd : Bool)

abbrev Program := CallProgram Call (Option ℕ)

def Call.reg : Call → ℕ
  | .read regNum _ _ | .write regNum _ _ _ => regNum &&& 0x1F

def Bus.page (b : Bus) : Call → ℕ
  | .read _ page _ | .write _ page _ _ => page &&& b.pageMask

def Bus.cell (b : Bus) (c : Call) : ℕ × ℕ := (b.page c, c.reg)

/-! ## The PHY -/

/-- The registers by page and number; the page register is the same one in each page. -/
structure Phy where
  page : ℕ
  cells : ℕ × ℕ → ℕ

namespace Phy

def get (phy : Phy) (b : Bus) (cell : ℕ × ℕ) : ℕ :=
  if cell.2 = b.pageReg then phy.page else phy.cells cell

def put (phy : Phy) (b : Bus) (cell : ℕ × ℕ) (value : ℕ) : Phy :=
  if cell.2 = b.pageReg then { phy with page := value }
  else { phy with cells := Function.update phy.cells cell value }

def rd (phy : Phy) (b : Bus) (reg : ℕ) : ℕ := phy.get b (phy.page, reg)

def wr (phy : Phy) (b : Bus) (reg value : ℕ) : Phy := phy.put b (phy.page, reg) value

end Phy

abbrev Held := Option ((ℕ × ℕ) × ℕ)

inductive Stage where
  | enter
  | check
  | select
  | access
  | leave (r : Option ℕ)

inductive Caller where
  | idle
  | busy (held : Held) (c : Call) (stage : Stage) (k : Option ℕ → Program Unit)

/-- An update writes the register that was read for it, and keeps it as it is until then. -/
def Bus.spec (b : Bus) : CallProgram.Spec Call (Option ℕ) Held where
  allowed held c :=
    match c with
    | .read _ _ upd => upd = true → c.reg ≠ b.pageReg
    | .write _ _ _ true => ∃ v, held = some (b.cell c, v)
    | .write _ _ _ false =>
      ∀ cell v, held = some (cell, v) → c.reg ≠ b.pageReg ∧ cell ≠ b.cell c
  returns _ _ _ := True
  next held c r :=
    match c with
    | .read _ _ true => r.map fun v => (b.cell c, v)
    | .write _ _ _ true => none
    | .read _ _ false | .write _ _ _ false => held

structure State where
  phy : Phy
  sem : Option ℕ
  caller : ℕ → Caller

def Call.first : Call → Stage
  | .read .. => .check
  | .write .. => .select

def Bus.entry (b : Bus) (c : Call) : Stage := if b.lock then .enter else c.first

def Bus.resume (b : Bus) (held : Held) : Program Unit → Caller
  | .done _ => .idle
  | .call c k => .busy held c (b.entry c) k

def Bus.finish (b : Bus) (held : Held) (c : Call) (k : Option ℕ → Program Unit) (r : Option ℕ) :
    Caller :=
  if b.lock then .busy (b.spec.next held c r) c (.leave r) k
  else b.resume (b.spec.next held c r) (k r)

namespace State

def move (s : State) (n : ℕ) (cl : Caller) : State :=
  { s with caller := Function.update s.caller n cl }

def access (s : State) (b : Bus) (n : ℕ) : State :=
  match s.caller n with
  | .idle | .busy _ _ .enter _ | .busy _ _ (.leave _) _ => s
  | .busy held c .check k =>
    s.move n (.busy held c (if s.phy.rd b b.pageReg = b.page c then .access else .select) k)
  | .busy held c .select k =>
    { s with phy := s.phy.wr b b.pageReg (b.page c) }.move n (.busy held c .access k)
  | .busy held (.read regNum page upd) .access k =>
    let c := Call.read regNum page upd
    s.move n (b.finish held c k (some (s.phy.rd b c.reg)))
  | .busy held (.write regNum page value upd) .access k =>
    let c := Call.write regNum page value upd
    { s with phy := s.phy.wr b c.reg value }.move n (b.finish held c k (some 0))

end State

/-! ## Operations -/

inductive Op where
  | init
  | read (regNum page : ℕ)
  | write (regNum page value : ℕ)
  | link
  | getSpeedDuplex
  | restartAutoneg

structure Driver extends Bus where
  program : Op → Program Unit
  updates : ∀ op, (program op).wp toBus.spec (fun _ _ => True) none

inductive Event where
  | start (n : ℕ) (op : Op)
  | down (n : ℕ)
  | interrupt (n : ℕ)
  | access (n : ℕ)
  | fail (n : ℕ)
  | up (n : ℕ)

inductive Step (d : Driver) (s : State) : Event → State → Prop
  | start {n : ℕ} (op : Op) (hidle : s.caller n = .idle) :
      Step d s (.start n op) (s.move n (d.resume none (d.program op)))
  | down {n : ℕ} {held : Held} {c : Call} {k : Option ℕ → Program Unit}
      (hcaller : s.caller n = .busy held c .enter k) (hfree : s.sem = none) :
      Step d s (.down n) ({ s with sem := some n }.move n (.busy held c c.first k))
  | interrupt {n : ℕ} {held : Held} {c : Call} {k : Option ℕ → Program Unit}
      (hcaller : s.caller n = .busy held c .enter k) :
      Step d s (.interrupt n) (s.move n (d.resume (d.spec.next held c none) (k none)))
  | access {n : ℕ}
      (hvalue : ∀ held regNum page value upd k,
        s.caller n = .busy held (.write regNum page value upd) .access k →
          value ≤ Mdio.mdioMaxWriteValue) :
      Step d s (.access n) (s.access d.toBus n)
  | fail {n : ℕ} {held : Held} {c : Call} {stage : Stage} {k : Option ℕ → Program Unit}
      (hcaller : s.caller n = .busy held c stage k)
      (hstage : stage = .check ∨ stage = .select ∨ stage = .access) :
      Step d s (.fail n) (s.move n (d.finish held c k none))
  | up {n : ℕ} {held : Held} {c : Call} {r : Option ℕ} {k : Option ℕ → Program Unit}
      (hcaller : s.caller n = .busy held c (.leave r) k) :
      Step d s (.up n) ({ s with sem := none }.move n (d.resume held (k r)))

structure Initial (s : State) : Prop where
  sem : s.sem = none
  caller : ∀ n, s.caller n = .idle

def Driver.system (d : Driver) : TransitionSystem State Event := ⟨Initial, Step d⟩

/-! ## What is promised -/

structure OnPage (b : Bus) (s : State) : Prop where
  read : ∀ n held c k, s.caller n = .busy held c .access k →
    s.phy.rd b c.reg = s.phy.get b (b.cell c)
  write : ∀ n held c k, s.caller n = .busy held c .access k →
    ∀ value, s.phy.wr b c.reg value = s.phy.put b (b.cell c) value

def NoLostUpdate (b : Bus) (s : State) : Prop :=
  ∀ n held regNum page value k,
    s.caller n = .busy held (.write regNum page value true) .access k →
      ∃ v, held = some (b.cell (.write regNum page value true), v) ∧
        s.phy.get b (b.cell (.write regNum page value true)) = v

def Caller.held : Caller → Held
  | .idle => none
  | .busy held _ _ _ => held

def Caller.OnPage (b : Bus) (phy : Phy) (cl : Caller) : Prop :=
  ∀ held c k, cl = .busy held c .access k → phy.page = b.page c

def Caller.Keeps (b : Bus) (phy : Phy) (cl : Caller) : Prop :=
  ∀ cell v, cl.held = some (cell, v) → phy.get b cell = v

/-- No MDIO access changes the page that another caller has selected and not used yet, or a
register that another caller has read to update and not written yet. -/
def Undisturbed (b : Bus) (s : State) : Event → Prop
  | .access n => ∀ m, m ≠ n →
      ((s.caller m).OnPage b s.phy → (s.caller m).OnPage b (s.access b n).phy) ∧
        ((s.caller m).Keeps b s.phy → (s.caller m).Keeps b (s.access b n).phy)
  | .start _ _ | .down _ | .interrupt _ | .fail _ | .up _ => True

variable {b : Bus} {d : Driver} {s s' : State} {phy phy' : Phy} {n : ℕ} {held : Held} {c : Call}
  {k : Option ℕ → Program Unit} {cl : Caller} {clean : Prop}

theorem Phy.get_put_of_ne {cell other : ℕ × ℕ} (hne : other ≠ cell) (hreg : cell.2 ≠ b.pageReg)
    (v : ℕ) : (phy.put b cell v).get b other = phy.get b other := by
  unfold Phy.put Phy.get
  rw [if_neg hreg]
  split
  · rfl
  · exact Function.update_of_ne hne _ _

theorem Phy.get_select {cell : ℕ × ℕ} (hreg : cell.2 ≠ b.pageReg) (page : ℕ) :
    (phy.wr b b.pageReg page).get b cell = phy.get b cell := by
  unfold Phy.wr Phy.put Phy.get
  rw [if_pos rfl, if_neg hreg, if_neg hreg]

theorem Phy.page_select (page : ℕ) : (phy.wr b b.pageReg page).page = page := by
  unfold Phy.wr Phy.put
  rw [if_pos rfl]

theorem Phy.rd_pageReg : phy.rd b b.pageReg = phy.page := by
  unfold Phy.rd Phy.get
  rw [if_pos rfl]

def Caller.Inside : Caller → Bool
  | .idle | .busy _ _ .enter _ => false
  | .busy _ _ .check _ | .busy _ _ .select _ | .busy _ _ .access _ | .busy _ _ (.leave _) _ => true

def Caller.Follows (b : Bus) : Caller → Prop
  | .idle => True
  | .busy held _ (.leave r) k => (k r).wp b.spec (fun _ _ => True) held
  | .busy held c .enter k | .busy held c .check k | .busy held c .select k
  | .busy held c .access k =>
    b.spec.allowed held c ∧ ∀ r, (k r).wp b.spec (fun _ _ => True) (b.spec.next held c r)

/-- The invariant; the pages need the semaphore or `clean`, the updates need `clean`. -/
structure Inv (b : Bus) (clean : Prop) (s : State) : Prop where
  holds : b.lock = true → ∀ n, (s.caller n).Inside = true ↔ s.sem = some n
  follows : ∀ n, (s.caller n).Follows b
  plain : ∀ n cell v, (s.caller n).held = some (cell, v) → cell.2 ≠ b.pageReg
  onPage : b.lock = true ∨ clean → ∀ n, (s.caller n).OnPage b s.phy
  keeps : clean → ∀ n, (s.caller n).Keeps b s.phy

structure Moved (b : Bus) (clean : Prop) (s : State) (n : ℕ) (cl : Caller) (s' : State) :
    Prop where
  caller : s'.caller = Function.update s.caller n cl
  others : b.lock = true → ∀ m, m ≠ n → (s.sem = some m ↔ s'.sem = some m)
  holds : b.lock = true → (cl.Inside = true ↔ s'.sem = some n)
  follows : cl.Follows b
  plain : ∀ cell v, cl.held = some (cell, v) → cell.2 ≠ b.pageReg
  onPage : b.lock = true ∨ clean → cl.OnPage b s'.phy
  keeps : clean → cl.Keeps b s'.phy
  pages : b.lock = true ∨ clean → ∀ m, m ≠ n →
    (s.caller m).OnPage b s.phy → (s.caller m).OnPage b s'.phy
  kept : clean → ∀ m, m ≠ n → (s.caller m).Keeps b s.phy → (s.caller m).Keeps b s'.phy

theorem Inv.moved (h : Inv b clean s) (hmoved : Moved b clean s n cl s') : Inv b clean s' := by
  have hcases : ∀ m, m = n ∧ s'.caller m = cl ∨ m ≠ n ∧ s'.caller m = s.caller m := by
    intro m
    by_cases hm : m = n
    · refine Or.inl ⟨hm, ?_⟩
      rw [hmoved.caller, hm, Function.update_self]
    · refine Or.inr ⟨hm, ?_⟩
      rw [hmoved.caller, Function.update_of_ne hm]
  refine ⟨fun hlock m => ?_, fun m => ?_, fun m => ?_, fun hpage m => ?_, fun hclean m => ?_⟩
  all_goals rcases hcases m with ⟨rfl, heq⟩ | ⟨hm, heq⟩
  all_goals rw [heq]
  · exact hmoved.holds hlock
  · rw [h.holds hlock m, hmoved.others hlock m hm]
  · exact hmoved.follows
  · exact h.follows m
  · exact hmoved.plain
  · exact h.plain m
  · exact hmoved.onPage hpage
  · exact hmoved.pages hpage m hm (h.onPage hpage m)
  · exact hmoved.keeps hclean
  · exact hmoved.kept hclean m hm (h.keeps hclean m)

theorem Inv.others_onPage (h : Inv b clean s) (hlock : b.lock = true)
    (hinside : (s.caller n).Inside = true) {m : ℕ} (hm : m ≠ n) (phy' : Phy) :
    (s.caller m).OnPage b phy' := by
  intro held c k hcaller
  have hother : (s.caller m).Inside = true := by
    rw [hcaller]
    rfl
  have hsem := (h.holds hlock n).mp hinside
  rw [h.holds hlock m, hsem, Option.some.injEq] at hother
  exact absurd hother.symm hm

theorem entry_cases (b : Bus) (c : Call) :
    b.entry c = .enter ∨ b.entry c = .check ∨ b.entry c = .select := by
  unfold Bus.entry
  split
  · exact Or.inl rfl
  · cases c with
    | read => exact Or.inr (Or.inl rfl)
    | write => exact Or.inr (Or.inr rfl)

theorem resume_follows {p : Program Unit} (h : p.wp b.spec (fun _ _ => True) held) :
    (b.resume held p).Follows b := by
  cases p with
  | done a => trivial
  | call c k =>
    have hcall : b.spec.allowed held c ∧
        ∀ r, (k r).wp b.spec (fun _ _ => True) (b.spec.next held c r) :=
      ⟨h.1, fun r => h.2 r trivial⟩
    change (Caller.busy held c (b.entry c) k).Follows b
    rcases entry_cases b c with hentry | hentry | hentry
    all_goals rw [hentry]
    all_goals exact hcall

theorem resume_inside (hlock : b.lock = true) (held : Held) (p : Program Unit) :
    (b.resume held p).Inside = false := by
  cases p with
  | done a => rfl
  | call c k =>
    have hentry : b.entry c = .enter := if_pos hlock
    change (Caller.busy held c (b.entry c) k).Inside = false
    rw [hentry]
    rfl

theorem resume_onPage (held : Held) (p : Program Unit) (phy : Phy) :
    (b.resume held p).OnPage b phy := by
  intro held' c' k' heq
  cases p with
  | done a => cases heq
  | call c k =>
    injection heq with _ _ hstage
    rcases entry_cases b c with hentry | hentry | hentry
    all_goals rw [hentry] at hstage
    all_goals cases hstage

theorem resume_held {p : Program Unit} {cell : ℕ × ℕ} {v : ℕ}
    (h : (b.resume held p).held = some (cell, v)) : held = some (cell, v) := by
  cases p with
  | done a => cases h
  | call c k => exact h

theorem finish_follows {r : Option ℕ}
    (h : (k r).wp b.spec (fun _ _ => True) (b.spec.next held c r)) :
    (b.finish held c k r).Follows b := by
  unfold Bus.finish
  split
  · exact h
  · exact resume_follows h

theorem finish_inside (hlock : b.lock = true) (r : Option ℕ) :
    (b.finish held c k r).Inside = true := by
  unfold Bus.finish
  rw [if_pos hlock]
  rfl

theorem finish_onPage (r : Option ℕ) (phy : Phy) : (b.finish held c k r).OnPage b phy := by
  unfold Bus.finish
  split
  · intro held' c' k' heq
    cases heq
  · exact resume_onPage _ _ _

theorem finish_held {r : Option ℕ} {cell : ℕ × ℕ} {v : ℕ}
    (h : (b.finish held c k r).held = some (cell, v)) : b.spec.next held c r = some (cell, v) := by
  unfold Bus.finish at h
  split at h
  · exact h
  · exact resume_held h

theorem next_held {r : Option ℕ} {cell : ℕ × ℕ} {v : ℕ}
    (h : b.spec.next held c r = some (cell, v)) :
    (held = some (cell, v) ∧ ∀ regNum page value, c ≠ .write regNum page value true) ∨
      (∃ regNum page, c = .read regNum page true) ∧ cell = b.cell c ∧ r = some v := by
  cases c with
  | read regNum page upd =>
    cases upd with
    | false => exact Or.inl ⟨h, nofun⟩
    | true =>
      obtain ⟨w, hr, hcell⟩ := Option.map_eq_some_iff.mp h
      cases hcell
      exact Or.inr ⟨⟨regNum, page, rfl⟩, rfl, hr⟩
  | write regNum page value upd =>
    cases upd with
    | false => exact Or.inl ⟨h, nofun⟩
    | true => cases h

theorem finish_plain (h : Inv b clean s) (hcaller : (s.caller n).held = held)
    (hallowed : b.spec.allowed held c) {r : Option ℕ} {cell : ℕ × ℕ} {v : ℕ}
    (hfinish : (b.finish held c k r).held = some (cell, v)) : cell.2 ≠ b.pageReg := by
  rcases next_held (finish_held hfinish) with ⟨hold, -⟩ | ⟨⟨regNum, page, rfl⟩, rfl, -⟩
  · exact h.plain n cell v (hcaller.trans hold)
  · exact hallowed rfl

theorem Inv.move (h : Inv b clean s) {sem : Option ℕ}
    (hothers : b.lock = true → ∀ m, m ≠ n → (s.sem = some m ↔ sem = some m))
    (hholds : b.lock = true → (cl.Inside = true ↔ sem = some n)) (hfollows : cl.Follows b)
    (hplain : ∀ cell v, cl.held = some (cell, v) → cell.2 ≠ b.pageReg)
    (honPage : b.lock = true ∨ clean → cl.OnPage b s.phy) (hkeeps : clean → cl.Keeps b s.phy) :
    Inv b clean ({ s with sem := sem }.move n cl) :=
  h.moved ⟨rfl, hothers, hholds, hfollows, hplain, honPage, hkeeps, fun _ _ _ hold => hold,
    fun _ _ _ hold => hold⟩

theorem Inv.finish (h : Inv b clean s) {stage : Stage} (hcaller : s.caller n = .busy held c stage k)
    (hinside : (s.caller n).Inside = true) (hfollows : b.spec.allowed held c ∧
      ∀ r, (k r).wp b.spec (fun _ _ => True) (b.spec.next held c r)) (r : Option ℕ)
    (hpages : b.lock = true ∨ clean → ∀ m, m ≠ n →
      (s.caller m).OnPage b s.phy → (s.caller m).OnPage b phy')
    (hkept : clean → ∀ m, m ≠ n → (s.caller m).Keeps b s.phy → (s.caller m).Keeps b phy')
    (hown : clean → ∀ cell v, b.spec.next held c r = some (cell, v) → phy'.get b cell = v) :
    Inv b clean ({ s with phy := phy' }.move n (b.finish held c k r)) := by
  have hheld : (s.caller n).held = held := by
    rw [hcaller]
    rfl
  refine h.moved ⟨rfl, fun _ _ _ => Iff.rfl, fun hlock => ?_, finish_follows (hfollows.2 r),
    fun cell v => finish_plain h hheld hfollows.1, fun _ => finish_onPage _ _,
    fun hclean cell v hcell => hown hclean cell v (finish_held hcell), hpages, hkept⟩
  rw [finish_inside hlock]
  exact ⟨fun _ => (h.holds hlock n).mp hinside, fun _ => rfl⟩

theorem Inv.access (h : Inv b clean s) (hundisturbed : clean → Undisturbed b s (.access n)) :
    Inv b clean (s.access b n) := by
  have hfollows := h.follows n
  have hpages : b.lock = true ∨ clean → (s.caller n).Inside = true → ∀ m, m ≠ n →
      (s.caller m).OnPage b s.phy → (s.caller m).OnPage b (s.access b n).phy := by
    rintro (hlock | hclean) hinside m hm hold
    · exact h.others_onPage hlock hinside hm _
    · exact (hundisturbed hclean m hm).1 hold
  have hkept : clean → ∀ m, m ≠ n → (s.caller m).Keeps b s.phy →
      (s.caller m).Keeps b (s.access b n).phy :=
    fun hclean m hm => (hundisturbed hclean m hm).2
  unfold State.access at hpages hkept ⊢
  cases hcaller : s.caller n with
  | idle => exact h
  | busy held c stage k =>
    have hheld : (s.caller n).held = held := by
      rw [hcaller]
      rfl
    rw [hcaller] at hfollows hpages hkept
    cases stage with
    | enter => exact h
    | leave r => exact h
    | check =>
      have hinside : (s.caller n).Inside = true := by
        rw [hcaller]
        rfl
      refine h.move (fun _ _ _ => Iff.rfl) (fun hlock => ?_) ?_ (fun cell v hcell =>
        h.plain n cell v (hheld.trans hcell)) (fun _ held' c' k' heq => ?_)
        fun hclean cell v hcell => h.keeps hclean n cell v (hheld.trans hcell)
      · rw [← h.holds hlock n, hinside]
        split
        · exact ⟨fun _ => rfl, fun _ => rfl⟩
        · exact ⟨fun _ => rfl, fun _ => rfl⟩
      · split
        · exact hfollows
        · exact hfollows
      · split at heq
        next hpage =>
          cases heq
          rw [Phy.rd_pageReg] at hpage
          exact hpage
        next => cases heq
    | select =>
      have hinside : (s.caller n).Inside = true := by
        rw [hcaller]
        rfl
      refine h.moved ⟨rfl, fun _ _ _ => Iff.rfl, fun hlock => ?_, hfollows, fun cell v hcell =>
        h.plain n cell v (hheld.trans hcell), fun _ held' c' k' heq => ?_,
        fun hclean cell v hcell => ?_, fun hpage => hpages hpage rfl, hkept⟩
      · exact ⟨fun _ => (h.holds hlock n).mp hinside, fun _ => rfl⟩
      · cases heq
        exact Phy.page_select _
      · -- the page register is not the one that is held
        have hcell : (s.caller n).held = some (cell, v) := hheld.trans hcell
        exact (Phy.get_select (h.plain n cell v hcell) _).trans (h.keeps hclean n cell v hcell)
    | access =>
      have hinside : (s.caller n).Inside = true := by
        rw [hcaller]
        rfl
      cases c with
      | read regNum page upd =>
        refine h.finish hcaller hinside hfollows _ (fun hpage => hpages hpage rfl) hkept
          fun hclean cell v hnext => ?_
        rcases next_held hnext with ⟨hold, -⟩ | ⟨-, rfl, hr⟩
        · exact h.keeps hclean n cell v (hheld.trans hold)
        · have hpage : s.phy.page = b.page (.read regNum page upd) :=
            h.onPage (Or.inr hclean) n _ _ _ hcaller
          have hv : s.phy.get b (s.phy.page, Call.reg (.read regNum page upd)) = v :=
            Option.some.inj hr
          rw [hpage] at hv
          exact hv
      | write regNum page value upd =>
        refine h.finish hcaller hinside hfollows _ (fun hpage => hpages hpage rfl) hkept
          fun hclean cell v hnext => ?_
        rcases next_held hnext with ⟨hold, hplain⟩ | ⟨⟨_, _, heq⟩, -⟩
        · have hpage : s.phy.page = b.page (.write regNum page value upd) :=
            h.onPage (Or.inr hclean) n _ _ _ hcaller
          have hwr : s.phy.wr b (Call.reg (.write regNum page value upd)) value =
              s.phy.put b (b.cell (.write regNum page value upd)) value := by
            unfold Phy.wr
            rw [hpage]
            rfl
          cases upd with
          | true => exact absurd rfl (hplain _ _ _)
          | false =>
            have hother := hfollows.1 cell v hold
            rw [hwr, Phy.get_put_of_ne hother.2 hother.1]
            exact h.keeps hclean n cell v (hheld.trans hold)
        · cases heq

theorem Inv.step {e : Event} (h : Inv d.toBus clean s)
    (hundisturbed : clean → Undisturbed d.toBus s e) (hstep : Step d s e s') :
    Inv d.toBus clean s' := by
  cases hstep with
  | start op hidle =>
    have hnone : ∀ cell v, (d.resume none (d.program op)).held ≠ some (cell, v) :=
      fun cell v hcell => nomatch resume_held hcell
    refine h.move (fun _ _ _ => Iff.rfl) (fun hlock => ?_) (resume_follows (d.updates op))
      (fun cell v hcell => absurd hcell (hnone cell v)) (fun _ => resume_onPage _ _ _)
      fun _ cell v hcell => absurd hcell (hnone cell v)
    rw [resume_inside hlock, ← h.holds hlock, hidle]
    rfl
  | @down n held c k hcaller hfree =>
    have hheld : (s.caller n).held = held := by
      rw [hcaller]
      rfl
    have hfollows := h.follows n
    rw [hcaller] at hfollows
    refine h.move (fun _ m hm => ?_) (fun _ => ?_) ?_ (fun cell v hcell =>
      h.plain n cell v (hheld.trans hcell)) (fun _ held' c' k' heq => ?_)
      fun hclean cell v hcell => h.keeps hclean n cell v (hheld.trans hcell)
    · rw [hfree, Option.some.injEq]
      exact ⟨nofun, fun heq => absurd heq.symm hm⟩
    · cases c with
      | read => exact ⟨fun _ => rfl, fun _ => rfl⟩
      | write => exact ⟨fun _ => rfl, fun _ => rfl⟩
    · cases c with
      | read => exact hfollows
      | write => exact hfollows
    · cases c with
      | read => cases heq
      | write => cases heq
  | @interrupt n held c k hcaller =>
    have hheld : (s.caller n).held = held := by
      rw [hcaller]
      rfl
    have hfollows := h.follows n
    rw [hcaller] at hfollows
    have hold : ∀ cell v, (d.resume (d.spec.next held c none) (k none)).held = some (cell, v) →
        (s.caller n).held = some (cell, v) := by
      intro cell v hcell
      rcases next_held (resume_held hcell) with ⟨hold, -⟩ | ⟨-, -, hr⟩
      · exact hheld.trans hold
      · cases hr
    refine h.move (fun _ _ _ => Iff.rfl) (fun hlock => ?_) (resume_follows (hfollows.2 none))
      (fun cell v hcell => h.plain n cell v (hold cell v hcell)) (fun _ => resume_onPage _ _ _)
      fun hclean cell v hcell => h.keeps hclean n cell v (hold cell v hcell)
    rw [resume_inside hlock, ← h.holds hlock, hcaller]
    rfl
  | access => exact h.access hundisturbed
  | @fail n held c stage k hcaller hstage =>
    have hheld : (s.caller n).held = held := by
      rw [hcaller]
      rfl
    have hfollows := h.follows n
    have hinside : (s.caller n).Inside = true := by
      rw [hcaller]
      rcases hstage with rfl | rfl | rfl
      · rfl
      · rfl
      · rfl
    have hgoes : d.spec.allowed held c ∧
        ∀ r, (k r).wp d.spec (fun _ _ => True) (d.spec.next held c r) := by
      rw [hcaller] at hfollows
      rcases hstage with rfl | rfl | rfl
      · exact hfollows
      · exact hfollows
      · exact hfollows
    refine h.finish hcaller hinside hgoes none (fun _ _ _ hold => hold) (fun _ _ _ hold => hold)
      fun hclean cell v hnext => ?_
    rcases next_held hnext with ⟨hold, -⟩ | ⟨-, -, hr⟩
    · exact h.keeps hclean n cell v (hheld.trans hold)
    · cases hr
  | @up n held c r k hcaller =>
    have hheld : (s.caller n).held = held := by
      rw [hcaller]
      rfl
    have hfollows := h.follows n
    rw [hcaller] at hfollows
    refine h.move (fun hlock m hm => ?_) (fun hlock => ?_) (resume_follows hfollows)
      (fun cell v hcell => h.plain n cell v (hheld.trans (resume_held hcell)))
      (fun _ => resume_onPage _ _ _)
      fun hclean cell v hcell => h.keeps hclean n cell v (hheld.trans (resume_held hcell))
    · have hsem : s.sem = some n := (h.holds hlock n).mp (by rw [hcaller]; rfl)
      rw [hsem, Option.some.injEq]
      exact ⟨fun heq => absurd heq.symm hm, nofun⟩
    · rw [resume_inside hlock]
      exact ⟨nofun, nofun⟩

theorem Initial.inv (h : Initial s) : Inv b clean s := by
  refine ⟨fun _ n => ?_, fun n => ?_, fun n cell v hcell => ?_, fun _ n held c k hcaller => ?_,
    fun _ n cell v hcell => ?_⟩
  · rw [h.caller n, h.sem]
    exact ⟨nofun, nofun⟩
  · rw [h.caller n]
    trivial
  · rw [h.caller n] at hcell
    cases hcell
  · rw [h.caller n] at hcaller
    cases hcaller
  · rw [h.caller n] at hcell
    cases hcell

theorem Inv.onPageState (h : Inv b clean s) (hpage : b.lock = true ∨ clean) : OnPage b s := by
  have hselected : ∀ n held c k, s.caller n = .busy held c .access k → s.phy.page = b.page c :=
    fun n held c k hcaller => h.onPage hpage n held c k hcaller
  refine ⟨fun n held c k hcaller => ?_, fun n held c k hcaller value => ?_⟩
  · unfold Phy.rd
    rw [hselected n held c k hcaller]
    rfl
  · unfold Phy.wr
    rw [hselected n held c k hcaller]
    rfl

theorem Inv.noLostUpdate (h : Inv b clean s) (hclean : clean) : NoLostUpdate b s := by
  intro n held regNum page value k hcaller
  have hfollows := h.follows n
  rw [hcaller] at hfollows
  obtain ⟨v, hheld⟩ := hfollows.1
  refine ⟨v, hheld, h.keeps hclean n _ v ?_⟩
  rw [hcaller]
  exact hheld

theorem onPage_of_lock (hlock : d.lock = true) (hreach : d.system.Reachable s) :
    OnPage d.toBus s := by
  have hinv : Inv d.toBus False s := hreach.invariant (fun _ hinit => Initial.inv hinit)
    fun _ _ _ _ hinv hstep => hinv.step (fun hfalse => hfalse.elim) hstep
  exact hinv.onPageState (Or.inl hlock)

theorem onPage_of_undisturbed
    (hreach : (d.system.restrict (Undisturbed d.toBus)).Reachable s) :
    OnPage d.toBus s ∧ NoLostUpdate d.toBus s := by
  have hinv : Inv d.toBus True s := hreach.invariant (fun _ hinit => Initial.inv hinit)
    fun _ _ _ _ hinv hstep => hinv.step (fun _ => hstep.1) hstep.2
  exact ⟨hinv.onPageState (Or.inr trivial), hinv.noLostUpdate trivial⟩

end HiMpu.PagedPhy
