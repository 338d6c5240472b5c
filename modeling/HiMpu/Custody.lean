import Mathlib.Tactic

/-!
# Custody

Items are in one of two queues, or in the hand of one of many holders, and nowhere twice.
The lemmas say how a distribution of that kind changes when a holder takes an item from the
head of a queue, puts it at the end of one, or brings an item in or takes it away.
-/

namespace HiMpu

structure Custody {α ι : Type*} (q r : List α) (hand : ι → Option α) (all : α → Prop) : Prop where
  nodup_left : q.Nodup
  nodup_right : r.Nodup
  disjoint : ∀ a ∈ q, a ∉ r
  hand_left : ∀ c a, hand c = some a → a ∉ q
  hand_right : ∀ c a, hand c = some a → a ∉ r
  hand_inj : ∀ c d a, hand c = some a → hand d = some a → c = d
  mem_iff : ∀ a, all a ↔ a ∈ q ∨ a ∈ r ∨ ∃ c, hand c = some a

namespace Custody

variable {α ι : Type*} {q r : List α} {hand hand' : ι → Option α} {all all' : α → Prop}
  {a : α} {c : ι}

theorem init (hnodup : q.Nodup) (hhand : ∀ c, hand c = none) (hall : ∀ a, all a ↔ a ∈ q) :
    Custody q [] hand all := by
  have hnone : ∀ c a, hand c ≠ some a := by
    intro c a h
    rw [hhand c] at h
    cases h
  refine ⟨hnodup, List.nodup_nil, fun a _ => List.not_mem_nil, fun c a h => absurd h (hnone c a),
    fun c a h => absurd h (hnone c a), fun c d a h => absurd h (hnone c a), fun a => ?_⟩
  rw [hall a]
  constructor
  · exact Or.inl
  · rintro (h | h | ⟨c, h⟩)
    · exact h
    · cases h
    · exact absurd h (hnone c a)

theorem swap (hcust : Custody q r hand all) : Custody r q hand all where
  nodup_left := hcust.nodup_right
  nodup_right := hcust.nodup_left
  disjoint a hr hq := hcust.disjoint a hq hr
  hand_left := hcust.hand_right
  hand_right := hcust.hand_left
  hand_inj := hcust.hand_inj
  mem_iff a := by
    rw [hcust.mem_iff]
    exact or_left_comm

theorem congr (hcust : Custody q r hand all) (hhand : ∀ c, hand' c = hand c)
    (hall : ∀ a, all' a ↔ all a) : Custody q r hand' all' := by
  have heq : hand' = hand := funext hhand
  subst heq
  exact { hcust with mem_iff := fun a => (hall a).trans (hcust.mem_iff a) }

theorem take_left (hcust : Custody (a :: q) r hand all) (hempty : hand c = none)
    (hc : hand' c = some a) (hothers : ∀ d ≠ c, hand' d = hand d) : Custody q r hand' all := by
  have hold : ∀ d b, hand' d = some b → (d = c ∧ b = a) ∨ (d ≠ c ∧ hand d = some b) := by
    intro d b h
    by_cases hd : d = c
    · subst hd
      rw [hc] at h
      exact Or.inl ⟨rfl, (Option.some_inj.mp h).symm⟩
    · rw [hothers d hd] at h
      exact Or.inr ⟨hd, h⟩
  have hq : ∀ b ∈ q, b ∈ a :: q := fun b => List.mem_cons_of_mem a
  have hnodup := List.nodup_cons.mp hcust.nodup_left
  refine ⟨hnodup.2, hcust.nodup_right, fun b hb => hcust.disjoint b (hq b hb), ?_, ?_, ?_, ?_⟩
  · intro d b h
    rcases hold d b h with ⟨_, rfl⟩ | ⟨_, h⟩
    · exact hnodup.1
    · exact fun hb => hcust.hand_left d b h (hq b hb)
  · intro d b h
    rcases hold d b h with ⟨_, rfl⟩ | ⟨_, h⟩
    · exact hcust.disjoint b List.mem_cons_self
    · exact hcust.hand_right d b h
  · intro d e b hd he
    rcases hold d b hd with ⟨rfl, rfl⟩ | ⟨_, hd⟩
    · rcases hold e b he with ⟨rfl, _⟩ | ⟨_, he⟩
      · rfl
      · exact absurd List.mem_cons_self (hcust.hand_left e b he)
    · rcases hold e b he with ⟨_, rfl⟩ | ⟨_, he⟩
      · exact absurd List.mem_cons_self (hcust.hand_left d b hd)
      · exact hcust.hand_inj d e b hd he
  · intro b
    rw [hcust.mem_iff b, List.mem_cons]
    constructor
    · rintro ((rfl | h) | h | ⟨d, h⟩)
      · exact Or.inr (Or.inr ⟨c, hc⟩)
      · exact Or.inl h
      · exact Or.inr (Or.inl h)
      · refine Or.inr (Or.inr ⟨d, ?_⟩)
        have hd : d ≠ c := by
          rintro rfl
          rw [hempty] at h
          cases h
        rw [hothers d hd]
        exact h
    · rintro (h | h | ⟨d, h⟩)
      · exact Or.inl (Or.inr h)
      · exact Or.inr (Or.inl h)
      · rcases hold d b h with ⟨_, rfl⟩ | ⟨_, h⟩
        · exact Or.inl (Or.inl rfl)
        · exact Or.inr (Or.inr ⟨d, h⟩)

theorem enter (hcust : Custody q r hand all) (hnew : ¬ all a) (hempty : hand c = none)
    (hc : hand' c = some a) (hothers : ∀ d ≠ c, hand' d = hand d)
    (hall : ∀ b, all' b ↔ all b ∨ b = a) : Custody q r hand' all' := by
  have habsent : a ∉ q ∧ a ∉ r ∧ ∀ d, hand d ≠ some a :=
    ⟨fun h => hnew ((hcust.mem_iff a).mpr (Or.inl h)),
      fun h => hnew ((hcust.mem_iff a).mpr (Or.inr (Or.inl h))),
      fun d h => hnew ((hcust.mem_iff a).mpr (Or.inr (Or.inr ⟨d, h⟩)))⟩
  have hcust' : Custody (a :: q) r hand all' := by
    refine ⟨List.nodup_cons.mpr ⟨habsent.1, hcust.nodup_left⟩, hcust.nodup_right, ?_, ?_,
      hcust.hand_right, hcust.hand_inj, ?_⟩
    · intro b hb
      rcases List.mem_cons.mp hb with rfl | hb
      · exact habsent.2.1
      · exact hcust.disjoint b hb
    · intro d b h hb
      rcases List.mem_cons.mp hb with rfl | hb
      · exact habsent.2.2 d h
      · exact hcust.hand_left d b h hb
    · intro b
      rw [hall b, hcust.mem_iff b, List.mem_cons]
      tauto
  exact hcust'.take_left hempty hc hothers

theorem leave (hcust : Custody q r hand all) (hc : hand c = some a) (hempty : hand' c = none)
    (hothers : ∀ d ≠ c, hand' d = hand d) (hall : ∀ b, all' b ↔ all b ∧ b ≠ a) :
    Custody q r hand' all' := by
  have hold : ∀ d b, hand' d = some b → d ≠ c ∧ hand d = some b := by
    intro d b h
    have hd : d ≠ c := by
      rintro rfl
      rw [hempty] at h
      cases h
    rw [hothers d hd] at h
    exact ⟨hd, h⟩
  refine ⟨hcust.nodup_left, hcust.nodup_right, hcust.disjoint,
    fun d b h => hcust.hand_left d b (hold d b h).2,
    fun d b h => hcust.hand_right d b (hold d b h).2,
    fun d e b hd he => hcust.hand_inj d e b (hold d b hd).2 (hold e b he).2, ?_⟩
  intro b
  rw [hall b, hcust.mem_iff b]
  constructor
  · rintro ⟨h | h | ⟨d, h⟩, hne⟩
    · exact Or.inl h
    · exact Or.inr (Or.inl h)
    · refine Or.inr (Or.inr ⟨d, ?_⟩)
      have hd : d ≠ c := by
        rintro rfl
        rw [hc] at h
        exact hne (Option.some_inj.mp h).symm
      rw [hothers d hd]
      exact h
  · rintro (h | h | ⟨d, h⟩)
    · refine ⟨Or.inl h, ?_⟩
      rintro rfl
      exact hcust.hand_left c b hc h
    · refine ⟨Or.inr (Or.inl h), ?_⟩
      rintro rfl
      exact hcust.hand_right c b hc h
    · obtain ⟨hd, h⟩ := hold d b h
      refine ⟨Or.inr (Or.inr ⟨d, h⟩), ?_⟩
      rintro rfl
      exact hd (hcust.hand_inj d c b h hc)

theorem admit_left (hcust : Custody q r hand all) (hnew : ¬ all a)
    (hall : ∀ b, all' b ↔ all b ∨ b = a) : Custody (q ++ [a]) r hand all' := by
  have habsent : a ∉ q ∧ a ∉ r ∧ ∀ d, hand d ≠ some a :=
    ⟨fun h => hnew ((hcust.mem_iff a).mpr (Or.inl h)),
      fun h => hnew ((hcust.mem_iff a).mpr (Or.inr (Or.inl h))),
      fun d h => hnew ((hcust.mem_iff a).mpr (Or.inr (Or.inr ⟨d, h⟩)))⟩
  refine ⟨List.nodup_append.mpr ⟨hcust.nodup_left, List.nodup_singleton a, ?_⟩,
    hcust.nodup_right, ?_, ?_, hcust.hand_right, hcust.hand_inj, ?_⟩
  · rintro b hb d hd rfl
    rw [List.mem_singleton] at hd
    subst hd
    exact habsent.1 hb
  · intro b hb
    rcases List.mem_append.mp hb with hb | hb
    · exact hcust.disjoint b hb
    · rw [List.mem_singleton] at hb
      subst hb
      exact habsent.2.1
  · intro d b h hb
    rcases List.mem_append.mp hb with hb | hb
    · exact hcust.hand_left d b h hb
    · rw [List.mem_singleton] at hb
      subst hb
      exact habsent.2.2 d h
  · intro b
    rw [hall b, hcust.mem_iff b, List.mem_append, List.mem_singleton]
    tauto

theorem put_left (hcust : Custody q r hand all) (hc : hand c = some a) (hempty : hand' c = none)
    (hothers : ∀ d ≠ c, hand' d = hand d) : Custody (q ++ [a]) r hand' all := by
  have hall : all a := (hcust.mem_iff a).mpr (Or.inr (Or.inr ⟨c, hc⟩))
  have hleft : Custody q r hand' (fun b => all b ∧ b ≠ a) :=
    hcust.leave hc hempty hothers fun _ => Iff.rfl
  refine hleft.admit_left (fun h => h.2 rfl) fun b => ?_
  constructor
  · intro h
    by_cases hb : b = a
    · exact Or.inr hb
    · exact Or.inl ⟨h, hb⟩
  · rintro (h | rfl)
    · exact h.1
    · exact hall

theorem take_right (hcust : Custody q (a :: r) hand all) (hempty : hand c = none)
    (hc : hand' c = some a) (hothers : ∀ d ≠ c, hand' d = hand d) : Custody q r hand' all :=
  (hcust.swap.take_left hempty hc hothers).swap

theorem put_right (hcust : Custody q r hand all) (hc : hand c = some a) (hempty : hand' c = none)
    (hothers : ∀ d ≠ c, hand' d = hand d) : Custody q (r ++ [a]) hand' all :=
  (hcust.swap.put_left hc hempty hothers).swap

end Custody

end HiMpu
