import Mathlib.Tactic

/-!
# Trees of tables in memory

A lookup starts at a root table.  At every level it takes one index from the
key, reads the entry in the slot of that index and either descends into the
table the entry leads to or stops.  The tables live in one memory; they form a
tree when every table is reached by one prefix only and no two tables share a
slot.  The lemmas say what one store does to the lookups: in a tree it concerns
the keys that share the prefix of the slot, and no others.
-/

namespace HiMpu

structure TableFormat (α ι τ σ ε : Type*) where
  index : ℕ → α → ι
  slot : τ → ι → σ
  child : ℕ → ε → Option τ

namespace TableFormat

variable {α ι τ σ ε : Type*}

def reach (F : TableFormat α ι τ σ ε) (h : σ → ε) (root : τ) (a : α) : ℕ → Option τ
  | 0 => some root
  | k + 1 =>
    (reach F h root a k).bind fun t => F.child k (h (F.slot t (F.index k a)))

def slotAt (F : TableFormat α ι τ σ ε) (h : σ → ε) (root : τ) (a : α) (k : ℕ) : Option σ :=
  (F.reach h root a k).map fun t => F.slot t (F.index k a)

def SameBlock (F : TableFormat α ι τ σ ε) (k : ℕ) (a b : α) : Prop :=
  ∀ j, j ≤ k → F.index j a = F.index j b

structure IsTree (F : TableFormat α ι τ σ ε) (h : σ → ε) (root : τ) : Prop where
  unique : ∀ k l a b t, F.reach h root a k = some t → F.reach h root b l = some t →
    k = l ∧ ∀ i, i < k → F.index i a = F.index i b
  apart : ∀ k l a b t u, F.reach h root a k = some t → F.reach h root b l = some u →
    F.slot t (F.index k a) = F.slot u (F.index l b) → t = u ∧ F.index k a = F.index l b

def Leaf (F : TableFormat α ι τ σ ε) (h : σ → ε) (root : τ) (a : α) (k : ℕ) (e : ε) : Prop :=
  ∃ p, F.slotAt h root a k = some p ∧ h p = e ∧ F.child k e = none

def AgreeOff (F : TableFormat α ι τ σ ε) (h h' : σ → ε) (root : τ) (p : σ) : Prop :=
  ∀ k a q, F.slotAt h root a k = some q → q ≠ p → h' q = h q

variable {F : TableFormat α ι τ σ ε} {h h' : σ → ε} {root t u : τ} {a b : α} {k j : ℕ} {p q : σ}
  {e : ε}

theorem slotAt_of_reach (hreach : F.reach h root a k = some t) :
    F.slotAt h root a k = some (F.slot t (F.index k a)) := by
  simp [slotAt, hreach]

theorem slotAt_eq_some :
    F.slotAt h root a k = some p ↔
      ∃ t, F.reach h root a k = some t ∧ F.slot t (F.index k a) = p := by
  simp [slotAt]

theorem reach_succ_eq_some :
    F.reach h root a (k + 1) = some t ↔
      ∃ p, F.slotAt h root a k = some p ∧ F.child k (h p) = some t := by
  simp [reach, slotAt, Option.bind_eq_some_iff]

theorem reach_succ_of_slotAt (hslot : F.slotAt h root a k = some p) :
    F.reach h root a (k + 1) = F.child k (h p) := by
  obtain ⟨t, hreach, rfl⟩ := slotAt_eq_some.mp hslot
  simp [reach, hreach]

theorem SameBlock.symm (hsame : F.SameBlock k a b) : F.SameBlock k b a :=
  fun j hj => (hsame j hj).symm

theorem SameBlock.trans {c : α} (hab : F.SameBlock k a b) (hbc : F.SameBlock k b c) :
    F.SameBlock k a c :=
  fun j hj => (hab j hj).trans (hbc j hj)

theorem SameBlock.of_le (hsame : F.SameBlock k a b) (hj : j ≤ k) : F.SameBlock j a b :=
  fun i hi => hsame i (hi.trans hj)

theorem sameBlock_succ :
    F.SameBlock (k + 1) a b ↔ F.SameBlock k a b ∧ F.index (k + 1) a = F.index (k + 1) b := by
  constructor
  · exact fun hsame => ⟨hsame.of_le k.le_succ, hsame _ le_rfl⟩
  · rintro ⟨hsame, hlast⟩ j hj
    rcases Nat.le_succ_iff.mp hj with hj | rfl
    · exact hsame j hj
    · exact hlast

theorem reach_congr_index (hindex : ∀ i, i < k → F.index i a = F.index i b) :
    F.reach h root a k = F.reach h root b k := by
  induction k with
  | zero => rfl
  | succ k ih =>
    have hup := ih fun i hi => hindex i (by omega)
    simp only [reach, hup, hindex k (by omega)]

theorem SameBlock.slotAt_eq (hsame : F.SameBlock k a b) :
    F.slotAt h root a k = F.slotAt h root b k := by
  have hup : F.reach h root a k = F.reach h root b k :=
    reach_congr_index fun i hi => hsame i hi.le
  simp only [slotAt, hup, hsame k le_rfl]

theorem exists_reach_of_le (hreach : F.reach h root a k = some t) (hj : j ≤ k) :
    ∃ u, F.reach h root a j = some u := by
  induction k generalizing t with
  | zero =>
    obtain rfl : j = 0 := by omega
    exact ⟨t, hreach⟩
  | succ k ih =>
    rcases Nat.le_succ_iff.mp hj with hj | rfl
    · obtain ⟨p, hslot, -⟩ := reach_succ_eq_some.mp hreach
      obtain ⟨u, hup, -⟩ := slotAt_eq_some.mp hslot
      exact ih hup hj
    · exact ⟨t, hreach⟩

theorem Leaf.level_le (hleaf : F.Leaf h root a k e) (hreach : F.reach h root a j = some t) :
    j ≤ k := by
  by_contra hlt
  obtain ⟨p, hp, rfl, hstop⟩ := hleaf
  obtain ⟨u, hu⟩ := exists_reach_of_le (j := k + 1) hreach (by omega)
  rw [reach_succ_of_slotAt hp, hstop] at hu
  cases hu

theorem Leaf.unique {l : ℕ} {e' : ε} (hleaf : F.Leaf h root a k e) (hleaf' : F.Leaf h root a l e') :
    k = l ∧ e = e' := by
  obtain ⟨p, hp, hread, -⟩ := id hleaf
  obtain ⟨q, hq, hread', -⟩ := id hleaf'
  obtain ⟨t, ht, -⟩ := slotAt_eq_some.mp hp
  obtain ⟨u, hu, -⟩ := slotAt_eq_some.mp hq
  obtain rfl : k = l := le_antisymm (hleaf'.level_le ht) (hleaf.level_le hu)
  rw [hp] at hq
  cases hq
  exact ⟨rfl, hread.symm.trans hread'⟩

theorem IsTree.slot_unique {l : ℕ} (htree : F.IsTree h root) (ha : F.slotAt h root a k = some p)
    (hb : F.slotAt h root b l = some p) : k = l ∧ F.SameBlock k a b := by
  obtain ⟨t, ht, hslot⟩ := slotAt_eq_some.mp ha
  obtain ⟨u, hu, hslot'⟩ := slotAt_eq_some.mp hb
  obtain ⟨rfl, hindex⟩ := htree.apart _ _ _ _ _ _ ht hu (hslot.trans hslot'.symm)
  obtain ⟨rfl, hup⟩ := htree.unique _ _ _ _ _ ht hu
  refine ⟨rfl, fun i hi => ?_⟩
  rcases hi.lt_or_eq with hi | rfl
  · exact hup i hi
  · exact hindex

theorem reach_of_empty (hempty : ∀ b, F.child 0 (h (F.slot root (F.index 0 b))) = none)
    (hreach : F.reach h root a k = some t) : k = 0 ∧ t = root := by
  have hleaf : F.Leaf h root a 0 (h (F.slot root (F.index 0 a))) := ⟨_, rfl, rfl, hempty a⟩
  obtain rfl : k = 0 := Nat.le_zero.mp (hleaf.level_le hreach)
  exact ⟨rfl, (Option.some.inj hreach).symm⟩

theorem isTree_of_empty (hempty : ∀ b, F.child 0 (h (F.slot root (F.index 0 b))) = none)
    (hinj : ∀ b c, F.slot root (F.index 0 b) = F.slot root (F.index 0 c) →
      F.index 0 b = F.index 0 c) : F.IsTree h root where
  unique k l a b t ha hb := by
    obtain ⟨rfl, rfl⟩ := reach_of_empty hempty ha
    exact ⟨(reach_of_empty hempty hb).1.symm, fun i hi => absurd hi (Nat.not_lt_zero i)⟩
  apart k l a b t u ha hb hslots := by
    obtain ⟨rfl, rfl⟩ := reach_of_empty hempty ha
    obtain ⟨rfl, rfl⟩ := reach_of_empty hempty hb
    exact ⟨rfl, hinj a b hslots⟩

theorem AgreeOff.reach_eq (hagree : F.AgreeOff h h' root p)
    (hoff : ∀ i, i < k → F.slotAt h root a i ≠ some p) :
    F.reach h' root a k = F.reach h root a k := by
  induction k with
  | zero => rfl
  | succ k ih =>
    have hup := ih fun i hi => hoff i (by omega)
    cases hreach : F.reach h root a k with
    | none => simp [reach, hup, hreach]
    | some t =>
      have hslot := slotAt_of_reach hreach
      have hread : h' (F.slot t (F.index k a)) = h (F.slot t (F.index k a)) := by
        apply hagree _ _ _ hslot
        intro heq
        exact hoff k k.lt_succ_self (heq ▸ hslot)
      simp only [reach, hup, hreach, Option.bind_some, hread]

section Store

variable (htree : F.IsTree h root) (hslot : F.slotAt h root a k = some p)
  (hagree : F.AgreeOff h h' root p)

include htree hslot hagree

theorem IsTree.reach_of_le (hj : j ≤ k) : F.reach h' root b j = F.reach h root b j := by
  apply hagree.reach_eq
  intro i hi hhit
  have := (htree.slot_unique hslot hhit).1
  omega

theorem IsTree.reach_of_not_sameBlock (hother : ¬ F.SameBlock k a b) :
    F.reach h' root b j = F.reach h root b j := by
  apply hagree.reach_eq
  intro i _ hhit
  exact hother (htree.slot_unique hslot hhit).2

theorem IsTree.slotAt_store (hsame : F.SameBlock k a b) : F.slotAt h' root b k = some p := by
  rw [slotAt, htree.reach_of_le hslot hagree le_rfl, ← slotAt, ← hsame.slotAt_eq, hslot]

theorem IsTree.leaf_store (hstop : F.child k (h' p) = none) (hsame : F.SameBlock k a b) :
    F.Leaf h' root b k (h' p) :=
  ⟨p, htree.slotAt_store hslot hagree hsame, rfl, hstop⟩

theorem IsTree.leaf_of_not_sameBlock {e : ε} (hleaf : F.Leaf h root b j e)
    (hother : ¬ F.SameBlock k a b) : F.Leaf h' root b j e := by
  obtain ⟨q, hq, rfl, hstop⟩ := hleaf
  have hread : h' q = h q := by
    apply hagree _ _ _ hq
    rintro rfl
    exact hother (htree.slot_unique hslot hq).2
  refine ⟨q, ?_, hread, hstop⟩
  rw [slotAt, htree.reach_of_not_sameBlock hslot hagree hother, ← slotAt, hq]

/-- Where the stored entry leads nowhere, every table of the new tree was one before. -/
theorem IsTree.reach_of_leaf (hstop : F.child k (h' p) = none)
    (hreach : F.reach h' root b j = some u) : F.reach h root b j = some u := by
  by_cases hsame : F.SameBlock k a b
  · have hle := (htree.leaf_store hslot hagree hstop hsame).level_le hreach
    rwa [htree.reach_of_le hslot hagree hle] at hreach
  · rwa [htree.reach_of_not_sameBlock hslot hagree hsame] at hreach

theorem IsTree.store_leaf (hstop : F.child k (h' p) = none) : F.IsTree h' root where
  unique k' l b c t hb hc :=
    htree.unique k' l b c t (htree.reach_of_leaf hslot hagree hstop hb)
      (htree.reach_of_leaf hslot hagree hstop hc)
  apart k' l b c t u hb hc :=
    htree.apart k' l b c t u (htree.reach_of_leaf hslot hagree hstop hb)
      (htree.reach_of_leaf hslot hagree hstop hc)

/-! ### A new table -/

theorem IsTree.reach_newTable (hchild : F.child k (h' p) = some t) (hsame : F.SameBlock k a b) :
    F.reach h' root b (k + 1) = some t := by
  rw [reach_succ_of_slotAt (htree.slotAt_store hslot hagree hsame), hchild]

section NewTable

variable (hchild : F.child k (h' p) = some t)
  (hempty : ∀ c, F.child (k + 1) (h' (F.slot t (F.index (k + 1) c))) = none)

include hchild hempty

theorem IsTree.leaf_newTable (hsame : F.SameBlock k a b) :
    F.Leaf h' root b (k + 1) (h' (F.slot t (F.index (k + 1) b))) :=
  ⟨_, slotAt_of_reach (htree.reach_newTable hslot hagree hchild hsame), rfl, hempty _⟩

theorem IsTree.reach_cases (hreach : F.reach h' root b j = some u) :
    F.reach h root b j = some u ∨ j = k + 1 ∧ F.SameBlock k a b ∧ u = t := by
  by_cases hsame : F.SameBlock k a b
  · have hnew := htree.reach_newTable hslot hagree hchild hsame
    have hle := (htree.leaf_newTable hslot hagree hchild hempty hsame).level_le hreach
    rcases Nat.le_succ_iff.mp hle with hj | rfl
    · rw [htree.reach_of_le hslot hagree hj] at hreach
      exact Or.inl hreach
    · rw [hnew] at hreach
      exact Or.inr ⟨rfl, hsame, (Option.some.inj hreach).symm⟩
  · rw [htree.reach_of_not_sameBlock hslot hagree hsame] at hreach
    exact Or.inl hreach

theorem IsTree.store_newTable (hnew : ∀ l b, F.reach h root b l ≠ some t)
    (hinj : ∀ b c, F.slot t (F.index (k + 1) b) = F.slot t (F.index (k + 1) c) →
      F.index (k + 1) b = F.index (k + 1) c)
    (hfresh : ∀ l b c, F.slotAt h root b l ≠ some (F.slot t (F.index (k + 1) c))) :
    F.IsTree h' root where
  unique l m b c u hb hc := by
    rcases htree.reach_cases hslot hagree hchild hempty hb with hb | ⟨rfl, hsb, rfl⟩
    · rcases htree.reach_cases hslot hagree hchild hempty hc with hc | ⟨-, -, rfl⟩
      · exact htree.unique _ _ _ _ _ hb hc
      · exact absurd hb (hnew _ _)
    · rcases htree.reach_cases hslot hagree hchild hempty hc with hc | ⟨rfl, hsc, -⟩
      · exact absurd hc (hnew _ _)
      · exact ⟨rfl, fun i hi => (hsb.symm.trans hsc) i (by omega)⟩
  apart l m b c u v hb hc hslots := by
    rcases htree.reach_cases hslot hagree hchild hempty hb with hb | ⟨rfl, -, rfl⟩
    · rcases htree.reach_cases hslot hagree hchild hempty hc with hc | ⟨rfl, -, rfl⟩
      · exact htree.apart _ _ _ _ _ _ hb hc hslots
      · exact absurd (hslots ▸ slotAt_of_reach hb) (hfresh _ _ _)
    · rcases htree.reach_cases hslot hagree hchild hempty hc with hc | ⟨rfl, -, rfl⟩
      · exact absurd (hslots ▸ slotAt_of_reach hc) (hfresh _ _ _)
      · exact ⟨rfl, hinj _ _ hslots⟩

end NewTable

end Store

end TableFormat

end HiMpu
