import Mathlib.Tactic

/-!
# Random numbers

`trng_get_random_user`, `trng_get_random_inside` and `trng_get_random` of
`drivers/trng/trng_ker.c`.  The words come in groups of four.  The reads of the data
registers, or the polls of the status, are numbered, so that every word copied is known by
the read it is from and its place in the group.
-/

namespace HiMpu.TrngRandom

def randomGrpCnt : ℕ := 4
def randomGrpNum : ℕ := 4
def randomMaxCnt : ℕ := 256
def trngWordByteCnt : ℕ := 4
def trngRandomTmout : ℕ := 5000

def erange : ℤ := 34
def einval : ℤ := 22
def eagain : ℤ := 11

structure Cell where
  read : ℕ
  word : ℕ

structure Write where
  pos : ℕ
  cell : Cell

structure Result where
  ret : ℤ
  writes : List Write
  next : ℕ

/-- The first of some reads that `avail` accepts. -/
def await (avail : ℕ → Bool) : ℕ → ℕ → Option ℕ
  | 0, _ => none
  | tries + 1, k => if avail k then some k else await avail tries (k + 1)

/-- `memcpy_s` with `cp_size` also as the size of the destination. -/
def memcpyS (dest cpSize read : ℕ) : List Write × ℤ :=
  if cpSize = 0 then ([], erange)
  else ((List.range (cpSize / trngWordByteCnt)).map fun w => ⟨dest + w, ⟨read, w⟩⟩, 0)

def randomLoop (avail : ℕ → Bool) (tries : ℕ) (checked : Bool) (counts remain : ℕ) :
    ℕ → ℕ → ℕ → Result
  | 0, _, k => ⟨0, [], k⟩
  | rounds + 1, i, k =>
    match await avail tries k with
    | none => ⟨-1, [], k + tries⟩
    | some a =>
      let cpSize :=
        if i = counts then remain * trngWordByteCnt else randomGrpCnt * trngWordByteCnt
      let (writes, ret) := memcpyS (i * trngWordByteCnt) cpSize a
      if checked && ret ≠ 0 then ⟨ret, writes, a + 1⟩
      else
        let rest := randomLoop avail tries checked counts remain rounds (i + 1) (a + 1)
        ⟨rest.ret, writes ++ rest.writes, rest.next⟩

def accepted (stream : ℕ → ℕ → BitVec 32) (k : ℕ) : Bool :=
  stream k 0 ≠ 0 && stream k 1 ≠ 0 && stream k 2 ≠ 0 && stream k 3 ≠ 0

def trngGetRandomUser (stream : ℕ → ℕ → BitVec 32) (k randomNums : ℕ) : Result :=
  let counts := randomNums / 4
  let remain := randomNums - counts * 4
  randomLoop (accepted stream) trngRandomTmout false counts remain (counts + 1) 0 k

/-- The status is read once more than `time_out` says. -/
def trngGetRandomInside (ready : ℕ → Bool) (k randomNums : ℕ) : Result :=
  let counts := randomNums / 4
  let remain := randomNums - counts * 4
  randomLoop ready (trngRandomTmout + 1) true counts remain (counts + 1) 0 k

/-! ## The request of a user -/

structure Request where
  copyFails : Bool
  dataNull : Bool
  cnt : ℕ

def applyWrites (randoms : ℕ → Option Cell) (writes : List Write) : ℕ → Option Cell :=
  writes.foldl (fun randoms w => Function.update randoms w.pos (some w.cell)) randoms

/-- `copyRet` is what `copy_to_user` returns for a place in the buffer of the user. -/
def getRandomLoop (stream : ℕ → ℕ → BitVec 32) (copyRet : ℕ → ℤ) (len ptr k : ℕ)
    (randoms : ℕ → Option Cell) : ℤ × List (ℕ × Option Cell) :=
  if len ≥ randomGrpNum then
    let r := trngGetRandomUser stream k randomGrpNum
    if r.ret ≠ 0 then (r.ret, [])
    else
      let randoms := applyWrites randoms r.writes
      if copyRet ptr ≠ 0 then (copyRet ptr, [])
      else
        let copied := (List.range randomGrpNum).map fun w => (ptr + w, randoms w)
        let rest := getRandomLoop stream copyRet (len - randomGrpNum) (ptr + randomGrpNum) r.next
          randoms
        (rest.1, copied ++ rest.2)
  else if len ≠ 0 then
    let r := trngGetRandomUser stream k len
    if r.ret ≠ 0 then (r.ret, [])
    else
      let randoms := applyWrites randoms r.writes
      if copyRet ptr ≠ 0 then (copyRet ptr, [])
      else (0, (List.range len).map fun w => (ptr + w, randoms w))
  else (0, [])
termination_by len
decreasing_by
  have hpos : 0 < randomGrpNum := Nat.zero_lt_succ 3
  omega

def trngGetRandom (stream : ℕ → ℕ → BitVec 32) (copyRet : ℕ → ℤ) (k : ℕ) (req : Request) :
    ℤ × List (ℕ × Option Cell) :=
  if req.copyFails then (-eagain, [])
  else if req.dataNull ∨ req.cnt > randomMaxCnt then (-einval, [])
  else getRandomLoop stream copyRet req.cnt 0 k fun _ => none

/-! ## The words wanted -/

def accepts (avail : ℕ → Bool) (tries : ℕ) : ℕ → ℕ → Option (List ℕ)
  | 0, _ => some []
  | groups + 1, k =>
    match await avail tries k with
    | none => none
    | some a => (accepts avail tries groups (a + 1)).map (a :: ·)

def deliver (n : ℕ) (reads : List ℕ) : List Write :=
  (List.range n).map fun p => ⟨p, ⟨reads.getD (p / 4) 0, p % 4⟩⟩

structure Delivered (avail : ℕ → Bool) (tries k n : ℕ) (r : Result) : Prop where
  available : ∀ reads, accepts avail tries ((n + 3) / 4) k = some reads → r.ret = 0
  delivered : r.ret = 0 →
    ∃ reads, accepts avail tries ((n + 3) / 4) k = some reads ∧ r.writes = deliver n reads
  nothingElse : ∀ w ∈ r.writes, w.pos < n
  once : (r.writes.map Write.pos).Nodup

/-- Every place of the user's buffer has a word of its own. -/
def Distinct (cnt : ℕ) (out : ℤ × List (ℕ × Option Cell)) : Prop :=
  out.1 = 0 → ∃ cells : List Cell, cells.Nodup ∧ out.2.map Prod.fst = List.range cnt ∧
    out.2.map Prod.snd = cells.map some

/-! ## Groups -/

section Groups

variable {avail : ℕ → Bool} {tries k : ℕ}

theorem await_spec {a : ℕ} (h : await avail tries k = some a) :
    k ≤ a ∧ a < k + tries ∧ avail a = true := by
  induction tries generalizing k with
  | zero => cases h
  | succ tries ih =>
    unfold await at h
    split at h
    next hk =>
      cases h
      exact ⟨le_rfl, by omega, hk⟩
    next =>
      obtain ⟨hle, hlt, hset⟩ := ih h
      exact ⟨by omega, by omega, hset⟩

theorem await_none (hnone : ∀ a, k ≤ a → avail a = false) : await avail tries k = none := by
  induction tries generalizing k with
  | zero => rfl
  | succ tries ih =>
    unfold await
    rw [hnone k le_rfl, if_neg Bool.false_ne_true]
    exact ih fun a ha => hnone a (by omega)

theorem length_accepts {m : ℕ} {reads : List ℕ} (h : accepts avail tries m k = some reads) :
    reads.length = m := by
  induction m generalizing k reads with
  | zero =>
    cases h
    rfl
  | succ m ih =>
    unfold accepts at h
    split at h
    · cases h
    · obtain ⟨rest, hrest, rfl⟩ := Option.map_eq_some_iff.mp h
      rw [List.length_cons, ih hrest]

theorem accepts_second {m a : ℕ} (hfirst : await avail tries k = some a)
    (hsecond : await avail tries (a + 1) = none) : accepts avail tries (m + 2) k = none := by
  simp only [accepts, hfirst, hsecond, Option.map_none]

theorem accepts_init {m : ℕ} {reads : List ℕ} (h : accepts avail tries (m + 1) k = some reads) :
    ∃ init a, reads = init ++ [a] ∧ accepts avail tries m k = some init := by
  induction m generalizing k reads with
  | zero =>
    unfold accepts at h
    split at h
    · cases h
    next a _ =>
      cases h
      exact ⟨[], a, rfl, rfl⟩
  | succ m ih =>
    rw [accepts] at h
    split at h
    · cases h
    next a hawait =>
      obtain ⟨rest, hrest, rfl⟩ := Option.map_eq_some_iff.mp h
      obtain ⟨init, b, rfl, hinit⟩ := ih hrest
      refine ⟨a :: init, b, rfl, ?_⟩
      rw [accepts, hawait]
      simp only [hinit, Option.map_some]

theorem deliver_append {n a : ℕ} {reads : List ℕ} (hn : n ≤ 4 * reads.length) :
    deliver n (reads ++ [a]) = deliver n reads := by
  unfold deliver
  apply List.map_congr_left
  intro p hp
  have hlt : p < n := List.mem_range.mp hp
  have hdiv : p / 4 < reads.length := by omega
  simp only [List.getD_eq_getElem?_getD, List.getElem?_append_left hdiv]

end Groups

section Loop

variable {avail : ℕ → Bool} {tries counts remain : ℕ} {checked : Bool}

theorem memcpyS_empty (dest read : ℕ) : memcpyS dest 0 read = ([], erange) := rfl

theorem memcpyS_words {n : ℕ} (hn : n ≠ 0) (dest read : ℕ) :
    memcpyS dest (n * trngWordByteCnt) read =
      ((List.range n).map fun w => ⟨dest + w, ⟨read, w⟩⟩, 0) := by
  have hpos : 0 < trngWordByteCnt := Nat.zero_lt_succ 3
  unfold memcpyS
  rw [if_neg (Nat.mul_ne_zero hn hpos.ne'), Nat.mul_div_cancel _ hpos]

theorem randomLoop_group {rounds i k a : ℕ} (hawait : await avail tries k = some a)
    (hi : i ≠ counts) :
    randomLoop avail tries checked counts remain (rounds + 1) i k =
      let rest := randomLoop avail tries checked counts remain rounds (i + 1) (a + 1)
      ⟨rest.ret, (List.range 4).map (fun w => ⟨i * 4 + w, ⟨a, w⟩⟩) ++ rest.writes, rest.next⟩ := by
  have hcopy : memcpyS (i * trngWordByteCnt) (randomGrpCnt * trngWordByteCnt) a = _ :=
    memcpyS_words (Nat.succ_ne_zero 3) _ _
  rw [randomLoop, hawait]
  simp only [if_neg hi, hcopy, ne_eq, not_true_eq_false, decide_false, Bool.and_false,
    Bool.false_eq_true, if_false]
  rfl

theorem randomLoop_last {k a : ℕ} (hawait : await avail tries k = some a) :
    randomLoop avail tries checked counts remain 1 counts k =
      ⟨if checked = true ∧ remain = 0 then erange else 0,
        (List.range remain).map fun w => ⟨counts * 4 + w, ⟨a, w⟩⟩, a + 1⟩ := by
  rw [randomLoop, hawait]
  simp only [if_true]
  by_cases hremain : remain = 0
  · subst hremain
    rw [Nat.zero_mul, memcpyS_empty]
    cases checked with
    | false => simp [randomLoop]
    | true => simp [erange]
  · rw [memcpyS_words hremain]
    simp [randomLoop, hremain, trngWordByteCnt]

theorem randomLoop_timeout {rounds i k : ℕ} (hawait : await avail tries k = none) :
    randomLoop avail tries checked counts remain (rounds + 1) i k = ⟨-1, [], k + tries⟩ := by
  rw [randomLoop, hawait]

theorem randomLoop_none {d i k : ℕ} (hi : i + d = counts)
    (hnone : accepts avail tries (d + 1) k = none) :
    (randomLoop avail tries checked counts remain (d + 1) i k).ret = -1 := by
  induction d generalizing i k with
  | zero =>
    rw [accepts] at hnone
    cases hawait : await avail tries k with
    | none => rw [randomLoop_timeout hawait]
    | some a =>
      rw [hawait] at hnone
      cases hnone
  | succ d ih =>
    rw [accepts] at hnone
    cases hawait : await avail tries k with
    | none => rw [randomLoop_timeout hawait]
    | some a =>
      rw [hawait] at hnone
      rw [randomLoop_group hawait (by omega)]
      exact ih (by omega) (Option.map_eq_none_iff.mp hnone)

theorem randomLoop_some {d i k : ℕ} {reads : List ℕ} (hi : i + d = counts) (hremain : remain < 4)
    (hsome : accepts avail tries (d + 1) k = some reads) :
    (randomLoop avail tries checked counts remain (d + 1) i k).ret =
        (if checked = true ∧ remain = 0 then erange else 0) ∧
      (randomLoop avail tries checked counts remain (d + 1) i k).writes =
        (List.range (4 * d + remain)).map fun p =>
          ⟨4 * i + p, ⟨reads.getD (p / 4) 0, p % 4⟩⟩ := by
  induction d generalizing i k reads with
  | zero =>
    rw [accepts] at hsome
    cases hawait : await avail tries k with
    | none =>
      rw [hawait] at hsome
      cases hsome
    | some a =>
      rw [hawait] at hsome
      cases hsome
      obtain rfl : i = counts := by omega
      rw [randomLoop_last hawait]
      refine ⟨rfl, ?_⟩
      rw [Nat.mul_zero, Nat.zero_add]
      apply List.map_congr_left
      intro p hp
      have hlt : p < remain := List.mem_range.mp hp
      have hdiv : p / 4 = 0 := by omega
      have hmod : p % 4 = p := by omega
      rw [hdiv, hmod, Nat.mul_comm]
      rfl
  | succ d ih =>
    rw [accepts] at hsome
    cases hawait : await avail tries k with
    | none =>
      rw [hawait] at hsome
      cases hsome
    | some a =>
      rw [hawait] at hsome
      obtain ⟨rest, hrest, rfl⟩ := Option.map_eq_some_iff.mp hsome
      obtain ⟨hret, hwrites⟩ := ih (i := i + 1) (by omega) hrest
      rw [randomLoop_group hawait (by omega)]
      refine ⟨hret, ?_⟩
      have hsplit : 4 * (d + 1) + remain = 4 + (4 * d + remain) := by omega
      simp only [hwrites]
      generalize 4 * d + remain = m at hsplit
      rw [hsplit, List.range_add, List.map_append, List.map_map]
      congr 1
      · apply List.map_congr_left
        intro p hp
        have hlt : p < 4 := List.mem_range.mp hp
        have hdiv : p / 4 = 0 := by omega
        have hmod : p % 4 = p := by omega
        rw [hdiv, hmod, Nat.mul_comm]
        rfl
      · apply List.map_congr_left
        intro p _
        have hpos : 4 * (i + 1) + p = 4 * i + (4 + p) := by omega
        have hdiv : (4 + p) / 4 = p / 4 + 1 := by omega
        have hmod : (4 + p) % 4 = p % 4 := by omega
        simp only [Function.comp_apply, hpos, hdiv, hmod, List.getD_cons_succ]

theorem randomLoop_places {d i k : ℕ} (hi : i + d = counts) (hremain : remain < 4) :
    (∀ w ∈ (randomLoop avail tries checked counts remain (d + 1) i k).writes,
      4 * i ≤ w.pos ∧ w.pos < 4 * counts + remain) ∧
    ((randomLoop avail tries checked counts remain (d + 1) i k).writes.map Write.pos).Nodup := by
  induction d generalizing i k with
  | zero =>
    cases hawait : await avail tries k with
    | none =>
      rw [randomLoop_timeout hawait]
      simp
    | some a =>
      obtain rfl : i = counts := by omega
      rw [randomLoop_last hawait]
      constructor
      · intro w hw
        obtain ⟨p, hp, rfl⟩ := List.mem_map.mp hw
        have hlt : p < remain := List.mem_range.mp hp
        simp only
        omega
      · rw [List.map_map]
        exact List.nodup_range.map fun p q h => Nat.add_left_cancel h
  | succ d ih =>
    cases hawait : await avail tries k with
    | none =>
      rw [randomLoop_timeout hawait]
      simp
    | some a =>
      obtain ⟨hplaces, hnodup⟩ := ih (i := i + 1) (k := a + 1) (by omega)
      rw [randomLoop_group hawait (by omega)]
      constructor
      · intro w hw
        rcases List.mem_append.mp hw with hw | hw
        · obtain ⟨p, hp, rfl⟩ := List.mem_map.mp hw
          have hlt : p < 4 := List.mem_range.mp hp
          simp only
          omega
        · have hbound := hplaces w hw
          omega
      · rw [List.map_append, List.map_map]
        apply List.Nodup.append
        · exact List.nodup_range.map fun p q h => Nat.add_left_cancel h
        · exact hnodup
        · intro x hx hx'
          obtain ⟨p, hp, rfl⟩ := List.mem_map.mp hx
          obtain ⟨w, hw, hpos⟩ := List.mem_map.mp hx'
          have hlt : p < 4 := List.mem_range.mp hp
          have hbound := (hplaces w hw).1
          simp only [Function.comp_apply] at hpos
          omega

theorem randomLoop_reads {rounds i k : ℕ} :
    k ≤ (randomLoop avail tries checked counts remain rounds i k).next ∧
    ∀ w ∈ (randomLoop avail tries checked counts remain rounds i k).writes,
      w.cell.read < (randomLoop avail tries checked counts remain rounds i k).next := by
  induction rounds generalizing i k with
  | zero => simp [randomLoop]
  | succ rounds ih =>
    cases hawait : await avail tries k with
    | none =>
      rw [randomLoop_timeout hawait]
      simp
    | some a =>
      have hle := (await_spec hawait).1
      obtain ⟨hnext, hreads⟩ := ih (i := i + 1) (k := a + 1)
      have hcopy : ∀ dest cpSize, ∀ w ∈ (memcpyS dest cpSize a).1, w.cell.read = a := by
        intro dest cpSize w hw
        unfold memcpyS at hw
        split at hw
        · cases hw
        · obtain ⟨p, _, rfl⟩ := List.mem_map.mp hw
          rfl
      rw [randomLoop, hawait]
      simp only
      generalize (if i = counts then remain * trngWordByteCnt
        else randomGrpCnt * trngWordByteCnt) = cpSize
      split
      · constructor
        · simp only
          omega
        · intro w hw
          have hread := hcopy _ _ w hw
          simp only
          omega
      · constructor
        · simp only
          omega
        · intro w hw
          rcases List.mem_append.mp hw with hw | hw
          · have hread := hcopy _ _ w hw
            simp only
            omega
          · exact hreads w hw

theorem delivered_of_reads {n : ℕ} {r : Result} {reads : List ℕ}
    (haccepts : accepts avail tries ((n + 3) / 4) k = some reads)
    (hret : r.ret = 0)
    (hwrites : r.writes = deliver n reads)
    (hinside : ∀ w ∈ r.writes, w.pos < n)
    (honce : (r.writes.map Write.pos).Nodup) :
    Delivered avail tries k n r := by
  constructor
  · exact fun _ _ => hret
  · exact fun _ => ⟨reads, haccepts, hwrites⟩
  · exact hinside
  · exact honce

theorem delivered_timeout_iff {n : ℕ} {r : Result}
    (haccepts : accepts avail tries (n / 4 + 1) k = none)
    (hret : r.ret ≠ 0)
    (hinside : ∀ w ∈ r.writes, w.pos < n)
    (honce : (r.writes.map Write.pos).Nodup) :
    Delivered avail tries k n r ↔ n % 4 ≠ 0 ∨ accepts avail tries (n / 4) k = none := by
  constructor
  · intro hdelivered
    by_cases hn : n % 4 = 0
    · right
      have hgroups : (n + 3) / 4 = n / 4 := by omega
      by_contra hcan
      obtain ⟨init, hinit⟩ := Option.ne_none_iff_exists'.mp hcan
      exact hret (hdelivered.available init (by rw [hgroups, hinit]))
    · exact Or.inl hn
  · intro hcases
    constructor
    · intro reads hreads
      by_cases hn : n % 4 = 0
      · have hgroups : (n + 3) / 4 = n / 4 := by omega
        rw [hgroups] at hreads
        simp [hn, hreads] at hcases
      · have hgroups : (n + 3) / 4 = n / 4 + 1 := by omega
        rw [hgroups, haccepts] at hreads
        cases hreads
    · exact fun hzero => absurd hzero hret
    · exact hinside
    · exact honce

/-- The loop makes one group more than it copies when the length is a multiple of four. -/
theorem loop_delivered_iff {n k : ℕ} :
    Delivered avail tries k n
        (randomLoop avail tries checked (n / 4) (n - n / 4 * 4) (n / 4 + 1) 0 k) ↔
      n % 4 ≠ 0 ∨ accepts avail tries (n / 4) k = none ∨
        (checked = false ∧ accepts avail tries (n / 4 + 1) k ≠ none) := by
  have hremain : n - n / 4 * 4 < 4 := by omega
  have hsize : 4 * (n / 4) + (n - n / 4 * 4) = n := by omega
  have hcounts := Nat.zero_add (n / 4)
  have hplaces := @randomLoop_places avail tries _ _ checked _ _ k hcounts hremain
  have hnone := @randomLoop_none avail tries _ (n - n / 4 * 4) checked _ _ k hcounts
  have hsome := fun reads =>
    @randomLoop_some avail tries _ _ checked _ _ k reads hcounts hremain
  revert hplaces hnone hsome
  generalize randomLoop avail tries checked (n / 4) (n - n / 4 * 4) (n / 4 + 1) 0 k = r
  intro hplaces hnone hsome
  have hinside : ∀ w ∈ r.writes, w.pos < n := by
    intro w hw
    have hbound := (hplaces.1 w hw).2
    omega
  cases haccepts : accepts avail tries (n / 4 + 1) k with
  | none =>
    have hret := hnone haccepts
    rw [delivered_timeout_iff haccepts (by omega) hinside hplaces.2]
    simp
  | some reads =>
    obtain ⟨hret, hwrites⟩ := hsome reads haccepts
    have hdeliver : r.writes = deliver n reads := by
      rw [hwrites, hsize]
      simp only [Nat.mul_zero, Nat.zero_add]
      rfl
    by_cases hn : n % 4 = 0
    · have hgroups : (n + 3) / 4 = n / 4 := by omega
      have hlast : n - n / 4 * 4 = 0 := by omega
      obtain ⟨init, a, rfl, hinit⟩ := accepts_init haccepts
      have hlength := length_accepts hinit
      rw [deliver_append (by omega)] at hdeliver
      cases checked with
      | false =>
        have hzero : r.ret = 0 := by simpa using hret
        constructor
        · simp
        · intro _
          exact delivered_of_reads (hgroups ▸ hinit) hzero hdeliver hinside hplaces.2
      | true =>
        have hrange : r.ret = erange := by simpa [hlast] using hret
        constructor
        · intro hdelivered
          have hzero := hdelivered.available init (by rw [hgroups, hinit])
          rw [hrange] at hzero
          cases hzero
        · intro hcases
          simp [hn, hinit] at hcases
    · have hgroups : (n + 3) / 4 = n / 4 + 1 := by omega
      have hlast : n - n / 4 * 4 ≠ 0 := by omega
      have hzero : r.ret = 0 := by simpa [hlast] using hret
      constructor
      · exact fun _ => Or.inl hn
      · intro _
        exact delivered_of_reads (hgroups ▸ haccepts) hzero hdeliver hinside hplaces.2

end Loop

section Random

variable {stream : ℕ → ℕ → BitVec 32} {copyRet : ℕ → ℤ}

theorem trngGetRandomUser_group {k n : ℕ} (hpos : 0 < n) (hn : n ≤ 4)
    (hret : (trngGetRandomUser stream k n).ret = 0) :
    ∃ a, k ≤ a ∧ a < (trngGetRandomUser stream k n).next ∧
      (trngGetRandomUser stream k n).writes = (List.range n).map fun p => ⟨p, ⟨a, p⟩⟩ := by
  have hremain : n - n / 4 * 4 < 4 := by omega
  have hsize : 4 * (n / 4) + (n - n / 4 * 4) = n := by omega
  cases haccepts : accepts (accepted stream) trngRandomTmout (n / 4 + 1) k with
  | none =>
    have hfail : (trngGetRandomUser stream k n).ret = -1 :=
      randomLoop_none (Nat.zero_add (n / 4)) haccepts
    rw [hfail] at hret
    cases hret
  | some reads =>
    have hwrites : (trngGetRandomUser stream k n).writes = _ :=
      (randomLoop_some (Nat.zero_add (n / 4)) hremain haccepts).2
    have hreads : ∀ w ∈ (trngGetRandomUser stream k n).writes,
        w.cell.read < (trngGetRandomUser stream k n).next := randomLoop_reads.2
    rw [accepts] at haccepts
    cases hawait : await (accepted stream) trngRandomTmout k with
    | none =>
      rw [hawait] at haccepts
      cases haccepts
    | some a =>
      rw [hawait] at haccepts
      obtain ⟨rest, _, rfl⟩ := Option.map_eq_some_iff.mp haccepts
      have hgroup : (trngGetRandomUser stream k n).writes =
          (List.range n).map fun p => ⟨p, ⟨a, p⟩⟩ := by
        refine hwrites.trans ?_
        rw [hsize]
        apply List.map_congr_left
        intro p hp
        have hlt : p < n := List.mem_range.mp hp
        have hdiv : p / 4 = 0 := by omega
        have hmod : p % 4 = p := by omega
        simp [hdiv, hmod]
      have hfirst : (⟨0, ⟨a, 0⟩⟩ : Write) ∈ (trngGetRandomUser stream k n).writes := by
        rw [hgroup]
        exact List.mem_map.mpr ⟨0, List.mem_range.mpr hpos, rfl⟩
      exact ⟨a, (await_spec hawait).1, hreads _ hfirst, hgroup⟩

theorem applyWrites_words {n w a : ℕ} (randoms : ℕ → Option Cell) (hw : w < n) :
    applyWrites randoms ((List.range n).map fun p => ⟨p, ⟨a, p⟩⟩) w = some ⟨a, w⟩ := by
  induction n with
  | zero => cases hw
  | succ n ih =>
    rw [List.range_succ, List.map_append, applyWrites, List.foldl_append]
    by_cases heq : w = n
    · subst heq
      simp
    · have hlt : w < n := by omega
      have hrest := ih hlt
      rw [applyWrites] at hrest
      simp only [List.map_cons, List.map_nil, List.foldl_cons, List.foldl_nil]
      rw [Function.update_of_ne heq]
      exact hrest

theorem chunk_words {n a ptr : ℕ} (randoms : ℕ → Option Cell) :
    ((List.range n).map fun w =>
        (ptr + w, applyWrites randoms ((List.range n).map fun p => ⟨p, ⟨a, p⟩⟩) w)) =
      (List.range n).map fun w => (ptr + w, some ⟨a, w⟩) := by
  apply List.map_congr_left
  intro w hw
  rw [applyWrites_words randoms (List.mem_range.mp hw)]

theorem group_nodup (n a : ℕ) : ((List.range n).map fun w => (⟨a, w⟩ : Cell)).Nodup := by
  refine List.nodup_range.map fun p q h => ?_
  cases h
  rfl

theorem getRandomLoop_group {len ptr k : ℕ} {randoms : ℕ → Option Cell} (hlen : 4 ≤ len)
    (hret : (getRandomLoop stream copyRet len ptr k randoms).1 = 0) :
    ∃ a next randoms', k ≤ a ∧ a < next ∧
      getRandomLoop stream copyRet len ptr k randoms =
        let rest := getRandomLoop stream copyRet (len - 4) (ptr + 4) next randoms'
        (rest.1, (List.range 4).map (fun w => (ptr + w, some ⟨a, w⟩)) ++ rest.2) := by
  have hge : len ≥ randomGrpNum := hlen
  rw [getRandomLoop, if_pos hge] at hret ⊢
  simp only [randomGrpNum] at hret ⊢
  by_cases huser : (trngGetRandomUser stream k 4).ret = 0
  · obtain ⟨a, hle, hlt, hwrites⟩ :=
      trngGetRandomUser_group (Nat.zero_lt_succ 3) (le_refl 4) huser
    by_cases hcopy : copyRet ptr = 0
    · refine ⟨a, _, applyWrites randoms (trngGetRandomUser stream k 4).writes, hle, hlt, ?_⟩
      rw [← chunk_words randoms, ← hwrites]
      simp [huser, hcopy]
    · simp [huser, hcopy] at hret
  · simp [huser] at hret

theorem getRandomLoop_rest {len ptr k : ℕ} {randoms : ℕ → Option Cell} (hpos : 0 < len)
    (hlen : len < 4) (hret : (getRandomLoop stream copyRet len ptr k randoms).1 = 0) :
    ∃ a, k ≤ a ∧
      getRandomLoop stream copyRet len ptr k randoms =
        (0, (List.range len).map fun w => (ptr + w, some ⟨a, w⟩)) := by
  have hlt : ¬ len ≥ randomGrpNum := Nat.not_le.mpr hlen
  rw [getRandomLoop, if_neg hlt, if_pos hpos.ne'] at hret ⊢
  simp only at hret ⊢
  by_cases huser : (trngGetRandomUser stream k len).ret = 0
  · obtain ⟨a, hle, _, hwrites⟩ := trngGetRandomUser_group hpos hlen.le huser
    by_cases hcopy : copyRet ptr = 0
    · refine ⟨a, hle, ?_⟩
      rw [← chunk_words randoms, ← hwrites]
      simp [huser, hcopy]
    · simp [huser, hcopy] at hret
  · simp [huser] at hret

theorem getRandomLoop_distinct {len ptr k : ℕ} {randoms : ℕ → Option Cell}
    (hret : (getRandomLoop stream copyRet len ptr k randoms).1 = 0) :
    ∃ cells : List Cell, cells.Nodup ∧ (∀ c ∈ cells, k ≤ c.read) ∧
      (getRandomLoop stream copyRet len ptr k randoms).2.map Prod.fst =
        (List.range len).map (ptr + ·) ∧
      (getRandomLoop stream copyRet len ptr k randoms).2.map Prod.snd = cells.map some := by
  induction len using Nat.strong_induction_on generalizing ptr k randoms with
  | _ len ih =>
    by_cases hlen : 4 ≤ len
    · obtain ⟨a, next, randoms', hle, hlt, hloop⟩ := getRandomLoop_group hlen hret
      rw [hloop] at hret ⊢
      obtain ⟨m, rfl⟩ : ∃ m, len = 4 + m := ⟨len - 4, by omega⟩
      rw [Nat.add_sub_cancel_left] at hret ⊢
      obtain ⟨cells, hnodup, hreads, hplaces, hcells⟩ := ih m (by omega) hret
      have hlater : ∀ c ∈ cells, a < c.read := fun c hc => hlt.trans_le (hreads c hc)
      refine ⟨(List.range 4).map (fun w => ⟨a, w⟩) ++ cells, ?_, ?_, ?_, ?_⟩
      · apply List.Nodup.append (group_nodup 4 a) hnodup
        intro c hc hc'
        obtain ⟨w, _, rfl⟩ := List.mem_map.mp hc
        exact (hlater _ hc').ne rfl
      · intro c hc
        rcases List.mem_append.mp hc with hc | hc
        · obtain ⟨w, _, rfl⟩ := List.mem_map.mp hc
          exact hle
        · exact hle.trans (hlater c hc).le
      · simp only [List.map_append, hplaces, List.range_add, List.map_map]
        congr 1
        apply List.map_congr_left
        intro p _
        exact Nat.add_assoc _ _ _
      · simp only [List.map_append, hcells, List.map_map]
        rfl
    · by_cases hzero : len = 0
      · subst hzero
        rw [getRandomLoop]
        exact ⟨[], List.nodup_nil, by simp, by simp [randomGrpNum], by simp [randomGrpNum]⟩
      · obtain ⟨a, hle, hloop⟩ := getRandomLoop_rest (by omega) (by omega) hret
        rw [hloop]
        refine ⟨(List.range len).map (fun w => ⟨a, w⟩), group_nodup len a, ?_, ?_, ?_⟩
        · intro c hc
          obtain ⟨w, _, rfl⟩ := List.mem_map.mp hc
          exact hle
        · rw [List.map_map]
          rfl
        · rw [List.map_map, List.map_map]
          rfl

theorem trngGetRandom_distinct (stream : ℕ → ℕ → BitVec 32) (copyRet : ℕ → ℤ) (k : ℕ)
    (req : Request) : Distinct req.cnt (trngGetRandom stream copyRet k req) := by
  intro hret
  unfold trngGetRandom at hret ⊢
  split at hret
  · cases hret
  · split at hret
    · cases hret
    next hfails hinvalid =>
      rw [if_neg hfails, if_neg hinvalid]
      obtain ⟨cells, hnodup, _, hplaces, hcells⟩ := getRandomLoop_distinct hret
      refine ⟨cells, hnodup, ?_, hcells⟩
      simpa using hplaces

structure RandomCorrect (stream : ℕ → ℕ → BitVec 32) (ready : ℕ → Bool) (copyRet : ℕ → ℤ)
    (k n : ℕ) (req : Request) : Prop where
  user : Delivered (accepted stream) trngRandomTmout k n (trngGetRandomUser stream k n)
  inside : Delivered ready (trngRandomTmout + 1) k n (trngGetRandomInside ready k n)
  request : Distinct req.cnt (trngGetRandom stream copyRet k req)

/-- A length that is a multiple of four needs a group that it does not use: the one function
waits for it, the other fails on the empty copy. -/
theorem random_correct_iff (stream : ℕ → ℕ → BitVec 32) (ready : ℕ → Bool) (copyRet : ℕ → ℤ)
    (k n : ℕ) (req : Request) :
    RandomCorrect stream ready copyRet k n req ↔
      n % 4 ≠ 0 ∨
        (accepts (accepted stream) trngRandomTmout (n / 4) k = none ∨
          accepts (accepted stream) trngRandomTmout (n / 4 + 1) k ≠ none) ∧
        accepts ready (trngRandomTmout + 1) (n / 4) k = none := by
  have huser : Delivered (accepted stream) trngRandomTmout k n (trngGetRandomUser stream k n) ↔ _ :=
    loop_delivered_iff
  have hinside : Delivered ready (trngRandomTmout + 1) k n (trngGetRandomInside ready k n) ↔ _ :=
    loop_delivered_iff
  constructor
  · intro h
    have h1 := huser.mp h.user
    have h2 := hinside.mp h.inside
    simp only [Bool.true_eq_false, false_and, or_false, true_and] at h1 h2
    rcases h2 with hn | hready
    · exact Or.inl hn
    · exact h1.imp id fun huser => ⟨huser, hready⟩
  · intro h
    constructor
    · rw [huser]
      simp only [true_and]
      exact h.imp id fun h => h.1
    · rw [hinside]
      exact h.imp id fun h => Or.inl h.2
    · exact trngGetRandom_distinct stream copyRet k req

/-- Four words: only the first read of the registers gives a group, and the status is always
set. -/
theorem four_missed :
    let stream : ℕ → ℕ → BitVec 32 := fun k _ => if k = 0 then 1 else 0
    (trngGetRandomUser stream 0 4).ret = -1 ∧
      (trngGetRandomInside (fun _ => true) 0 4).ret = erange ∧
      ¬ RandomCorrect stream (fun _ => true) (fun _ => 0) 0 4 ⟨false, false, 4⟩ := by
  intro stream
  have hnone : accepts (accepted stream) trngRandomTmout (4 / 4 + 1) 0 = none := by
    have hfirst : await (accepted stream) trngRandomTmout 0 = some 0 := rfl
    have hsecond : await (accepted stream) trngRandomTmout 1 = none := by
      apply await_none
      intro a ha
      have hne : a ≠ 0 := by omega
      simp [accepted, stream, hne]
    exact accepts_second hfirst hsecond
  have hinside : (trngGetRandomInside (fun _ => true) 0 4).ret = erange := rfl
  constructor
  · have hfail := @randomLoop_none _ _ _ (4 - 4 / 4 * 4) false _ _ _ (Nat.zero_add (4 / 4)) hnone
    exact hfail
  · constructor
    · exact hinside
    · intro h
      have hzero := h.inside.available [0] rfl
      rw [hinside] at hzero
      cases hzero

end Random

end HiMpu.TrngRandom
