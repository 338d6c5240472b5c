import Mathlib.Tactic

/-!
# Circular doubly linked lists

A circular list is a head node together with the nodes that the `next` links
visit before they return to the head.  `next` and `prev` are arbitrary link
functions over an arbitrary type of nodes, so the lemmas apply to any store
from which two such functions can be read.  Insertion behind the head and
removal of one node are stated through the values of the updated links.
-/

namespace HiMpu

variable {α : Type*}

def Linked (next prev : α → α) (x y : α) : Prop :=
  next x = y ∧ prev y = x

/-- The `next` links lead from `head` through `nodes` back to `head`, the
`prev` links lead the same way back, and no node occurs twice. -/
structure CircularList (next prev : α → α) (head : α) (nodes : List α) : Prop where
  links : (head :: (nodes ++ [head])).IsChain (Linked next prev)
  nodup : (head :: nodes).Nodup

namespace CircularList

variable {next prev next' prev' : α → α} {head c : α} {nodes left right : List α}

theorem empty (hnext : next head = head) (hprev : prev head = head) :
    CircularList next prev head [] := by
  refine ⟨?_, by simp⟩
  simpa [Linked] using And.intro hnext hprev

theorem congr (hlist : CircularList next prev head nodes)
    (hnext : ∀ x ∈ head :: nodes, next' x = next x)
    (hprev : ∀ x ∈ head :: nodes, prev' x = prev x) :
    CircularList next' prev' head nodes := by
  refine ⟨?_, hlist.nodup⟩
  apply hlist.links.imp_of_mem_imp
  intro x y hx hy hlinked
  have hx' : x ∈ head :: nodes := by
    simpa [or_comm, or_assoc] using hx
  have hy' : y ∈ head :: nodes := by
    simpa [or_comm, or_assoc] using hy
  exact ⟨(hnext x hx').trans hlinked.1, (hprev y hy').trans hlinked.2⟩

theorem head_notMem (hlist : CircularList next prev head nodes) : head ∉ nodes :=
  (List.nodup_cons.mp hlist.nodup).1

theorem nodes_nodup (hlist : CircularList next prev head nodes) : nodes.Nodup :=
  (List.nodup_cons.mp hlist.nodup).2

theorem next_head_nil (hlist : CircularList next prev head []) : next head = head := by
  have hlinks := hlist.links
  simp only [List.nil_append, List.isChain_cons_cons] at hlinks
  exact hlinks.1.1

theorem prev_next_head (hlist : CircularList next prev head nodes) :
    prev (next head) = head := by
  have hlinks := hlist.links
  cases nodes with
  | nil =>
    simp only [List.nil_append, List.isChain_cons_cons] at hlinks
    rw [hlinks.1.1]
    exact hlinks.1.2
  | cons first rest =>
    simp only [List.cons_append, List.isChain_cons_cons] at hlinks
    rw [hlinks.1.1]
    exact hlinks.1.2

theorem next_head_cons {first : α} {rest : List α}
    (hlist : CircularList next prev head (first :: rest)) : next head = first := by
  have hlinks := hlist.links
  simp only [List.cons_append, List.isChain_cons_cons] at hlinks
  exact hlinks.1.1

theorem next_head_eq_iff (hlist : CircularList next prev head nodes) :
    next head = head ↔ nodes = [] := by
  cases nodes with
  | nil => simpa using hlist.next_head_nil
  | cons first rest =>
    have hne : first ≠ head := by
      intro heq
      exact hlist.head_notMem (by simp [heq])
    simpa [hlist.next_head_cons] using hne

theorem next_head_mem (hlist : CircularList next prev head nodes) :
    next head ∈ head :: nodes := by
  cases nodes with
  | nil => simp [hlist.next_head_nil]
  | cons first rest => simp [hlist.next_head_cons]

theorem around (hlist : CircularList next prev head (left ++ c :: right)) :
    (head :: left).getLast? = some (prev c) ∧
      (right ++ [head]).head? = some (next c) ∧
      next (prev c) = c ∧ prev (next c) = c := by
  have hlinks := hlist.links
  have hshape : head :: (left ++ c :: right ++ [head]) =
      (head :: left) ++ c :: (right ++ [head]) := by simp
  rw [hshape, List.isChain_append] at hlinks
  obtain ⟨-, hright, hjoin⟩ := hlinks
  have hbefore : (head :: left).getLast? = some ((head :: left).getLast (by simp)) :=
    List.getLast?_eq_some_getLast (by simp)
  have hafter : (right ++ [head]).head? = some ((right ++ [head]).head (by simp)) :=
    List.head?_eq_some_head (by simp)
  have hin := hjoin _ hbefore c (by simp)
  have hout : Linked next prev c ((right ++ [head]).head (by simp)) := by
    rw [List.isChain_cons] at hright
    exact hright.1 _ hafter
  refine ⟨?_, ?_, ?_, ?_⟩
  · rw [hbefore, hin.2]
  · rw [hafter, hout.1]
  · rw [hin.2]
    exact hin.1
  · rw [hout.1]
    exact hout.2

theorem next_of_split (hlist : CircularList next prev head (left ++ c :: right)) :
    (right ++ [head]).head? = some (next c) :=
  hlist.around.2.1

theorem prev_mem (hlist : CircularList next prev head nodes) (hmem : c ∈ nodes) :
    prev c ∈ head :: nodes := by
  obtain ⟨left, right, rfl⟩ := List.append_of_mem hmem
  have hlast := List.mem_of_getLast? hlist.around.1
  simp only [List.mem_cons, List.mem_append] at hlast ⊢
  tauto

theorem next_mem (hlist : CircularList next prev head nodes) (hmem : c ∈ nodes) :
    next c ∈ head :: nodes := by
  obtain ⟨left, right, rfl⟩ := List.append_of_mem hmem
  have hfirst := List.mem_of_head? hlist.next_of_split
  simp only [List.mem_cons, List.mem_append, List.not_mem_nil, or_false] at hfirst ⊢
  tauto

theorem next_ne_self (hlist : CircularList next prev head nodes) (hmem : c ∈ nodes) :
    next c ≠ c := by
  obtain ⟨left, right, rfl⟩ := List.append_of_mem hmem
  have hfirst := List.mem_of_head? hlist.next_of_split
  have hnodup := hlist.nodup
  intro heq
  rw [heq] at hfirst
  simp only [List.nodup_cons, List.nodup_append, List.mem_cons, List.mem_append] at hnodup hfirst
  simp only [List.not_mem_nil, or_false] at hfirst
  rcases hfirst with hright | hhead
  · exact hnodup.2.2.1.1 hright
  · exact hnodup.1 (Or.inr (Or.inl hhead.symm))

theorem pushFront [DecidableEq α]
    (hlist : CircularList next prev head nodes) (hfresh : c ∉ head :: nodes)
    (hnext : ∀ x ∈ head :: c :: nodes,
      next' x = if x = head then c else if x = c then next head else next x)
    (hprev : ∀ x ∈ head :: c :: nodes,
      prev' x = if x = next head then c else if x = c then head else prev x) :
    CircularList next' prev' head (c :: nodes) := by
  have hcHead : c ≠ head := fun heq => hfresh (by simp [heq])
  have hcNodes : c ∉ nodes := fun hmem => hfresh (List.mem_cons_of_mem _ hmem)
  have hcNext : c ≠ next head := by
    intro heq
    exact hfresh (heq ▸ hlist.next_head_mem)
  -- A link that starts at a node other than the head does not end at the old
  -- first node, so neither of its two values was updated.
  have hkeep : ∀ x y, x ∈ nodes → y ∈ nodes ++ [head] →
      Linked next prev x y → Linked next' prev' x y := by
    intro x y hx hy hlinked
    have hxHead : x ≠ head := fun heq => hlist.head_notMem (heq ▸ hx)
    have hxc : x ≠ c := fun heq => hcNodes (heq ▸ hx)
    have hyc : y ≠ c := by
      intro heq
      apply hfresh
      rw [heq] at hy
      simpa [or_comm] using hy
    have hyFirst : y ≠ next head := by
      intro heq
      apply hxHead
      rw [← hlinked.2, heq]
      exact hlist.prev_next_head
    have hyMem : y ∈ head :: c :: nodes := by
      simp only [List.mem_append, List.mem_singleton] at hy
      simp only [List.mem_cons]
      tauto
    refine ⟨?_, ?_⟩
    · rw [hnext x (by simp [hx]), if_neg hxHead, if_neg hxc]
      exact hlinked.1
    · rw [hprev y hyMem, if_neg hyFirst, if_neg hyc]
      exact hlinked.2
  have hfirstMem : next head ∈ head :: c :: nodes := by
    have hmem := hlist.next_head_mem
    simp only [List.mem_cons] at hmem ⊢
    tauto
  refine ⟨?_, ?_⟩
  · have hlinks := hlist.links
    rw [List.isChain_cons, List.isChain_append] at hlinks
    obtain ⟨hhead, hinner, -, hlast⟩ := hlinks
    rw [List.cons_append, List.isChain_cons_cons, List.isChain_cons, List.isChain_append]
    refine ⟨⟨?_, ?_⟩, ?_, ?_, by simp, ?_⟩
    · rw [hnext head (by simp), if_pos rfl]
    · rw [hprev c (by simp), if_neg hcNext, if_pos rfl]
    · intro first hfirst
      have hfirstEq : next head = first := (hhead first hfirst).1
      subst first
      refine ⟨?_, ?_⟩
      · rw [hnext c (by simp), if_neg hcHead, if_pos rfl]
      · rw [hprev _ hfirstMem, if_pos rfl]
    · apply hinner.imp_of_mem_imp
      intro x y hx hy hlinked
      exact hkeep x y hx (by simp [hy]) hlinked
    · intro x hx y hy
      have hxMem : x ∈ nodes := List.mem_of_getLast? hx
      have hyHead : y ∈ nodes ++ [head] := by
        simp only [List.head?_cons, Option.mem_def, Option.some.injEq] at hy
        simp [hy]
      exact hkeep x y hxMem hyHead (hlast x hx y hy)
  · have hnodup := hlist.nodup
    simp only [List.nodup_cons, List.mem_cons, not_or] at hnodup ⊢
    exact ⟨⟨fun heq => hcHead heq.symm, hnodup.1⟩, hcNodes, hnodup.2⟩

theorem remove [DecidableEq α]
    (hlist : CircularList next prev head (left ++ c :: right))
    (hnext : ∀ x ∈ head :: (left ++ right),
      next' x = if x = prev c then next c else next x)
    (hprev : ∀ x ∈ head :: (left ++ right),
      prev' x = if x = next c then prev c else prev x) :
    CircularList next' prev' head (left ++ right) := by
  obtain ⟨hlast, hfirst, hback, hforth⟩ := hlist.around
  have hnodup := hlist.nodup
  have hcHead : c ≠ head := by
    rintro rfl
    exact hlist.head_notMem (by simp)
  have hcRest : c ∉ head :: left ∧ c ∉ right ++ [head] := by
    simp only [List.nodup_cons, List.nodup_append, List.mem_cons, List.mem_append] at hnodup
    refine ⟨?_, ?_⟩
    · simp only [List.mem_cons, not_or]
      exact ⟨hcHead, fun hmem => hnodup.2.2.2 c hmem c (Or.inl rfl) rfl⟩
    · simp only [List.mem_append, List.mem_singleton, not_or]
      exact ⟨hnodup.2.2.1.1, hcHead⟩
  have hkeep : ∀ x y, x ≠ c → y ≠ c →
      x ∈ head :: (left ++ right) → y ∈ head :: (left ++ right) →
      Linked next prev x y → Linked next' prev' x y := by
    intro x y hxc hyc hx hy hlinked
    have hxPrev : x ≠ prev c := by
      intro heq
      apply hyc
      rw [← hlinked.1, heq]
      exact hback
    have hyNext : y ≠ next c := by
      intro heq
      apply hxc
      rw [← hlinked.2, heq]
      exact hforth
    refine ⟨?_, ?_⟩
    · rw [hnext x hx, if_neg hxPrev]
      exact hlinked.1
    · rw [hprev y hy, if_neg hyNext]
      exact hlinked.2
  have hleftMem : ∀ x ∈ head :: left, x ∈ head :: (left ++ right) := by
    intro x hx
    simp only [List.mem_cons, List.mem_append] at hx ⊢
    tauto
  have hrightMem : ∀ x ∈ right ++ [head], x ∈ head :: (left ++ right) := by
    intro x hx
    simp only [List.mem_cons, List.mem_append, List.not_mem_nil, or_false] at hx ⊢
    tauto
  refine ⟨?_, ?_⟩
  · have hlinks := hlist.links
    have hshape : head :: (left ++ c :: right ++ [head]) =
        (head :: left) ++ c :: (right ++ [head]) := by simp
    have hshape' : head :: (left ++ right ++ [head]) =
        (head :: left) ++ (right ++ [head]) := by simp
    rw [hshape, List.isChain_append] at hlinks
    obtain ⟨hleft, hmiddle, -⟩ := hlinks
    have hright := (List.isChain_cons.mp hmiddle).2
    rw [hshape', List.isChain_append]
    refine ⟨?_, ?_, ?_⟩
    · apply hleft.imp_of_mem_imp
      intro x y hx hy hlinked
      exact hkeep x y (fun heq => hcRest.1 (heq ▸ hx)) (fun heq => hcRest.1 (heq ▸ hy))
        (hleftMem x hx) (hleftMem y hy) hlinked
    · apply hright.imp_of_mem_imp
      intro x y hx hy hlinked
      exact hkeep x y (fun heq => hcRest.2 (heq ▸ hx)) (fun heq => hcRest.2 (heq ▸ hy))
        (hrightMem x hx) (hrightMem y hy) hlinked
    · intro x hx y hy
      have hxEq : prev c = x := by simpa [hlast] using hx
      have hyEq : next c = y := by simpa [hfirst] using hy
      subst hxEq hyEq
      refine ⟨?_, ?_⟩
      · rw [hnext _ (hleftMem _ (List.mem_of_getLast? hlast)), if_pos rfl]
      · rw [hprev _ (hrightMem _ (List.mem_of_head? hfirst)), if_pos rfl]
  · have hsub : (head :: (left ++ right)).Sublist (head :: (left ++ c :: right)) :=
      ((List.sublist_cons_self c right).append_left left).cons_cons head
    exact List.Nodup.sublist hsub hnodup

end CircularList

end HiMpu
