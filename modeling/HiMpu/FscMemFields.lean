import HiMpu.FscMemModel

/-!
# Control blocks that do not overlap

What one store does to the members of another control block.  Control blocks
occupy 32 bytes, so two of them are either the same or 32 bytes apart; the
list operations are specified for such sets of nodes.
-/

namespace HiMpu.FscMem

def Apart (x y : ℕ) : Prop := x = y ∨ x + 32 ≤ y ∨ y + 32 ≤ x

def Spaced (nodes : ℕ → Prop) : Prop := ∀ x y, nodes x → nodes y → Apart x y

theorem Field.offset_le (f : Field) : f.offset ≤ 24 := by
  cases f <;> simp [Field.offset]

theorem Field.offset_apart {f g : Field} (hne : f ≠ g) :
    f.offset + 8 ≤ g.offset ∨ g.offset + 8 ≤ f.offset := by
  cases f <;> cases g <;> simp_all [Field.offset]

theorem field_lt (m : Mem) (block : ℕ) (f : Field) : field m block f < 2 ^ 64 := by
  have hlt := Mem.load_lt m (block + f.offset) 8
  norm_num at hlt ⊢
  exact hlt

theorem field_congr {m m' : Mem} {block : ℕ}
    (hsame : ∀ y, block ≤ y → y < block + 32 → m' y = m y) (f : Field) :
    field m' block f = field m block f := by
  have hoff := f.offset_le
  apply Mem.load_congr
  intro y hlow hhigh
  exact hsame y (by omega) (by omega)

theorem field_setField {m : Mem} {x y value : ℕ} {f g : Field}
    (hapart : Apart x y) (hvalue : value < 2 ^ 64) :
    field (setField m y g value) x f = if x = y ∧ f = g then value else field m x f := by
  have hf := f.offset_le
  have hg := g.offset_le
  unfold field setField
  by_cases hsame : x = y ∧ f = g
  · obtain ⟨rfl, rfl⟩ := hsame
    simp only [and_self, if_true]
    apply Mem.load_store_same_of_lt
    norm_num at hvalue ⊢
    exact hvalue
  · rw [if_neg hsame]
    apply Mem.load_store_disjoint
    by_cases hxy : x = y
    · have hne : f ≠ g := fun heq => hsame ⟨hxy, heq⟩
      have hoff := Field.offset_apart hne
      omega
    · unfold Apart at hapart
      omega

theorem field_setField_other {m : Mem} {x y value : ℕ} {f g : Field}
    (hapart : Apart x y) (hne : x ≠ y ∨ f ≠ g) :
    field (setField m y g value) x f = field m x f := by
  have hf := f.offset_le
  have hg := g.offset_le
  apply Mem.load_store_disjoint
  by_cases hxy : x = y
  · have hfg : f ≠ g := by
      rcases hne with h | h
      · exact absurd hxy h
      · exact h
    have hoff := Field.offset_apart hfg
    omega
  · unfold Apart at hapart
    omega

theorem setField_outside {m : Mem} {block value y : ℕ} {f : Field}
    (hout : y < block ∨ block + 32 ≤ y) : setField m block f value y = m y := by
  have hf := f.offset_le
  exact Mem.store_outside (by omega)

theorem field_store_outside {m : Mem} {addr n value x : ℕ} (f : Field)
    (hout : addr + n ≤ x ∨ x + 32 ≤ addr) :
    field (m.store addr n value) x f = field m x f := by
  apply field_congr
  intro y hlow hhigh
  exact Mem.store_outside (by omega)

section Delete

variable {nodes : ℕ → Prop} {m : Mem} {c : ℕ}

theorem delete_eq (hspaced : Spaced nodes) (hc : nodes c)
    (hnext : nodes (field m c .next)) (hself : field m c .next ≠ c) :
    bmMemoryDeleteFsc m c =
      setField (setField m (field m c .next) .prev (field m c .prev))
        (field m c .prev) .next (field m c .next) := by
  have hkeep : ∀ f, field (setField m (field m c .next) .prev (field m c .prev)) c f =
      field m c f := by
    intro f
    exact field_setField_other (hspaced _ _ hc hnext) (Or.inl hself.symm)
  unfold bmMemoryDeleteFsc
  simp only [hkeep]

theorem field_delete_links (hspaced : Spaced nodes) (hc : nodes c)
    (hnext : nodes (field m c .next)) (hprev : nodes (field m c .prev))
    (hself : field m c .next ≠ c) {x : ℕ} (hx : nodes x) :
    field (bmMemoryDeleteFsc m c) x .next =
        (if x = field m c .prev then field m c .next else field m x .next) ∧
      field (bmMemoryDeleteFsc m c) x .prev =
        (if x = field m c .next then field m c .prev else field m x .prev) := by
  rw [delete_eq hspaced hc hnext hself]
  constructor
  · rw [field_setField (hspaced _ _ hx hprev) (field_lt _ _ _),
      field_setField_other (hspaced _ _ hx hnext) (Or.inr (by decide))]
    simp
  · rw [field_setField_other (hspaced _ _ hx hprev) (Or.inr (by decide)),
      field_setField (hspaced _ _ hx hnext) (field_lt _ _ _)]
    simp

theorem field_delete_other (hspaced : Spaced nodes) (hc : nodes c)
    (hnext : nodes (field m c .next)) (hprev : nodes (field m c .prev))
    (hself : field m c .next ≠ c) {x : ℕ} (hx : nodes x) {f : Field}
    (hf : f = .size ∨ f = .prevSize) :
    field (bmMemoryDeleteFsc m c) x f = field m x f := by
  have hneNext : f ≠ .next := by rcases hf with rfl | rfl <;> decide
  have hnePrev : f ≠ .prev := by rcases hf with rfl | rfl <;> decide
  rw [delete_eq hspaced hc hnext hself,
    field_setField_other (hspaced _ _ hx hprev) (Or.inr hneNext),
    field_setField_other (hspaced _ _ hx hnext) (Or.inr hnePrev)]

theorem delete_outside (hspaced : Spaced nodes) (hc : nodes c)
    (hnext : nodes (field m c .next)) (hprev : nodes (field m c .prev))
    (hself : field m c .next ≠ c) {y : ℕ}
    (hout : ∀ z, nodes z → y < z ∨ z + 32 ≤ y) :
    bmMemoryDeleteFsc m c y = m y := by
  rw [delete_eq hspaced hc hnext hself, setField_outside (hout _ hprev),
    setField_outside (hout _ hnext)]

end Delete

section Link

variable {nodes : ℕ → Prop} {m : Mem} {head c : ℕ}

theorem linkBehind_eq (hspaced : Spaced nodes) (hc : nodes c) (hhead : nodes head)
    (hne : c ≠ head) :
    linkBehind m head c =
      setField (setField (setField (setField m c .prev head) c .next (field m head .next))
        (field m head .next) .prev c) head .next c := by
  have happart := hspaced _ _ hhead hc
  have hfirst : field (setField m c .prev head) head .next = field m head .next :=
    field_setField_other happart (Or.inl hne.symm)
  have hsecond : field (setField (setField m c .prev head) c .next (field m head .next))
      head .next = field m head .next := by
    rw [field_setField_other happart (Or.inl hne.symm), hfirst]
  unfold linkBehind
  simp only [hfirst, hsecond]

theorem field_linkBehind_links (hspaced : Spaced nodes) (hc : nodes c) (hhead : nodes head)
    (hfirst : nodes (field m head .next)) (hne : c ≠ head)
    (hcFits : c < 2 ^ 64) (hheadFits : head < 2 ^ 64) {x : ℕ} (hx : nodes x) :
    field (linkBehind m head c) x .next =
        (if x = head then c else if x = c then field m head .next else field m x .next) ∧
      field (linkBehind m head c) x .prev =
        (if x = field m head .next then c else if x = c then head else field m x .prev) := by
  rw [linkBehind_eq hspaced hc hhead hne]
  constructor
  · rw [field_setField (hspaced _ _ hx hhead) hcFits,
      field_setField_other (hspaced _ _ hx hfirst) (Or.inr (by decide)),
      field_setField (hspaced _ _ hx hc) (field_lt _ _ _),
      field_setField_other (hspaced _ _ hx hc) (Or.inr (by decide))]
    simp
  · rw [field_setField_other (hspaced _ _ hx hhead) (Or.inr (by decide)),
      field_setField (hspaced _ _ hx hfirst) hcFits,
      field_setField_other (hspaced _ _ hx hc) (Or.inr (by decide)),
      field_setField (hspaced _ _ hx hc) hheadFits]
    simp

theorem field_linkBehind_other (hspaced : Spaced nodes) (hc : nodes c) (hhead : nodes head)
    (hfirst : nodes (field m head .next)) (hne : c ≠ head) {x : ℕ} (hx : nodes x) {f : Field}
    (hf : f = .size ∨ f = .prevSize) :
    field (linkBehind m head c) x f = field m x f := by
  have hneNext : f ≠ .next := by rcases hf with rfl | rfl <;> decide
  have hnePrev : f ≠ .prev := by rcases hf with rfl | rfl <;> decide
  rw [linkBehind_eq hspaced hc hhead hne,
    field_setField_other (hspaced _ _ hx hhead) (Or.inr hneNext),
    field_setField_other (hspaced _ _ hx hfirst) (Or.inr hnePrev),
    field_setField_other (hspaced _ _ hx hc) (Or.inr hneNext),
    field_setField_other (hspaced _ _ hx hc) (Or.inr hnePrev)]

theorem linkBehind_outside (hspaced : Spaced nodes) (hc : nodes c) (hhead : nodes head)
    (hfirst : nodes (field m head .next)) (hne : c ≠ head) {y : ℕ}
    (hout : ∀ z, nodes z → y < z ∨ z + 32 ≤ y) :
    linkBehind m head c y = m y := by
  rw [linkBehind_eq hspaced hc hhead hne, setField_outside (hout _ hhead),
    setField_outside (hout _ hfirst), setField_outside (hout _ hc), setField_outside (hout _ hc)]

end Link

end HiMpu.FscMem
